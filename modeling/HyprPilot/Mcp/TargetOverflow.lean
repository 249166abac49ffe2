import HyprPilot.Mcp.Server
import HyprPilot.Vision.RunBoxes
import HyprPilot.Vision.Tsv

/-!
# The arithmetic of the click targets

From tesseract's table to the centres of the matches, and from an accessibility element to its click
point, with every sum and difference handed to an arithmetic. Some of them saturate and some do not;
a box far enough from another one, from the region's origin or from the window's overflows.
-/

namespace HyprPilot
open Machine

section Targets

variable (ar : Arithmetic)

def BBox.translateIn (b : BBox) (r : Region) : Except Fault BBox := do
  let x ← ar.plain (b.x + r.x)
  let y ← ar.plain (b.y + r.y)
  return { b with x, y }

def BBox.centerIn (b : BBox) : Except Fault (Int × Int) := do
  let x ← ar.saturating (b.x + b.w.tdiv 2)
  let y ← ar.saturating (b.y + b.h.tdiv 2)
  return (x, y)

def Element.centerIn (e : Element) : Except Fault (Int × Int) := do
  let x ← ar.plain (e.x + e.w.tdiv 2)
  let y ← ar.plain (e.y + e.h.tdiv 2)
  return (x, y)

def Mcp.translatedIn (region : Option Region) (m : TextMatch) : Except Fault TextMatch :=
  match region with
  | some r => do
    let bbox ← m.bbox.translateIn ar r
    return { m with bbox }
  | none => return m

/-- The matches of `scan_for_matches` in the table that tesseract gave. -/
def Mcp.scanIn (tsv : String) (minConfidence : Int) (query : String) (caseSensitive : Bool)
    (region : Option Region) : Except Fault (List TextMatch) := do
  let found ← findWordRunsIn ar (parseTsv tsv minConfidence) caseSensitive query
  Collect.collect (fun _ m => Mcp.translatedIn ar region m) 0 found

/-- The centres of the matches. -/
def Mcp.targetsIn (tsv : String) (minConfidence : Int) (query : String) (caseSensitive : Bool)
    (region : Option Region) : Except Fault (List (Int × Int)) := do
  let found ← Mcp.scanIn ar tsv minConfidence query caseSensitive region
  Collect.collect (fun _ m => m.bbox.centerIn ar) 0 found

/-- The click point of `handle_a11y_click` for a window at the origin. -/
def Mcp.elementPointIn (origin : Int × Int) (e : Element) : Except Fault (Int × Int) := do
  let (ecx, ecy) ← e.centerIn ar
  let cx ← ar.plain (origin.1 + ecx)
  let cy ← ar.plain (origin.2 + ecy)
  return (cx, cy)

end Targets

/-! ### The release build -/

theorem Mcp.scanIn_release (tsv : String) (minConfidence : Int) (query : String) (caseSensitive : Bool)
    (region : Option Region) : Mcp.scanIn .release tsv minConfidence query caseSensitive region =
      .ok ((findWordRuns (parseTsv tsv minConfidence) query caseSensitive).map (Mcp.translated region)) := by
  rw [Mcp.scanIn, findWordRunsIn_release]
  refine Collect.collect_map (fun _ m => ?_) 0 _
  cases region <;> rfl

theorem Mcp.elementPointIn_release (origin : Int × Int) (e : Element) :
    Mcp.elementPointIn .release origin e =
      .ok (wrap32 (origin.1 + e.center.1), wrap32 (origin.2 + e.center.2)) := rfl

/-! ### When a run is merged -/

namespace BBox

/-- No right edge lies more than `i32` can hold right of a left one, and no lower edge below an upper
one. -/
structure Spans (all : List BBox) : Prop where
  across : ∀ a ∈ all, ∀ b ∈ all, sat32 (a.x + a.w) - b.x ≤ 2147483647
  down : ∀ a ∈ all, ∀ b ∈ all, sat32 (a.y + a.h) - b.y ≤ 2147483647

theorem Spans.mono {all some : List BBox} (spans : Spans all) (part : some ⊆ all) : Spans some where
  across a memberA b memberB := spans.across a (part memberA) b (part memberB)
  down a memberA b memberB := spans.down a (part memberA) b (part memberB)

/-- The clamped end of a segment is no further left of its beginning than `i32` can hold. -/
theorem span_bounds {low length : Int} (fitsLow : Machine.InI32 low) (fitsLength : Machine.InI32 length) :
    Machine.InI32 (sat32 (low + length) - low) := by
  unfold Machine.InI32 sat32 at *
  omega

theorem spans_singleton {b : BBox} (fits : b.InI32) : Spans [b] where
  across := by
    rintro a memberA c memberC
    rw [List.mem_singleton.mp memberA, List.mem_singleton.mp memberC]
    exact (span_bounds fits.x fits.w).2
  down := by
    rintro a memberA c memberC
    rw [List.mem_singleton.mp memberA, List.mem_singleton.mp memberC]
    exact (span_bounds fits.y fits.h).2

/-- A hull of segments of `i32`s has an `i32` width when no end is too far from a beginning. -/
theorem inI32_hull_iff {all : List BBox} {lo length : BBox → Int} {low high : Int}
    (hull : Segments.Hull lo (fun b => sat32 (lo b + length b)) all low high)
    (fits : ∀ b ∈ all, Machine.InI32 (lo b) ∧ Machine.InI32 (length b)) :
    Machine.InI32 (high - low) ↔ ∀ a ∈ all, ∀ b ∈ all, sat32 (lo a + length a) - lo b ≤ 2147483647 := by
  rw [← hull.sub_le_iff]
  refine ⟨fun inside => inside.2, fun below => ⟨?_, below⟩⟩
  obtain ⟨b, member, begins⟩ := hull.low.1
  have ends := hull.le_high member
  have own := (span_bounds (fits b member).1 (fits b member).2).1
  omega

theorem unionIn_checked (a b : BBox) : a.unionIn .checked b =
    (fitted (max (sat32 (a.x + a.w)) (sat32 (b.x + b.w)) - min a.x b.x) >>= fun w =>
      fitted (max (sat32 (a.y + a.h)) (sat32 (b.y + b.h)) - min a.y b.y) >>= fun h =>
        .ok ⟨min a.x b.x, min a.y b.y, w, h⟩) := by
  unfold unionIn
  rfl

theorem unionIn_ends_iff {all : List BBox} {a b : BBox} (hull : IsHull sat32 all a)
    (fits : ∀ c ∈ all ++ [b], c.InI32) :
    (∃ u, a.unionIn .checked b = .ok u) ↔ Spans (all ++ [b]) := by
  have across := inI32_hull_iff (hull.across.concat b) fun c member => ⟨(fits c member).x, (fits c member).w⟩
  have down := inI32_hull_iff (hull.down.concat b) fun c member => ⟨(fits c member).y, (fits c member).h⟩
  rw [unionIn_checked, fitted_bind_ends_iff, fitted_bind_ends_iff]
  refine (and_congr across (and_congr_left' down)).trans ?_
  exact ⟨fun ends => ⟨ends.1, ends.2.1⟩, fun spans => ⟨spans.across, spans.down, _, rfl⟩⟩

/-- The boxes of a run are merged without overflow when they span no more than `i32` holds. -/
theorem fold_ends_iff {all : List BBox} {a : BBox} (hull : IsHull sat32 all a) (spans : Spans all)
    {rest : List Word} (fits : ∀ c ∈ all ++ rest.map Word.bbox, c.InI32) :
    (∃ u, rest.foldlM (fun box w => box.unionIn .checked w.bbox) a = .ok u) ↔
      Spans (all ++ rest.map Word.bbox) := by
  induction rest generalizing all a with
  | nil =>
    rw [List.map_nil, List.append_nil]
    exact iff_of_true ⟨a, rfl⟩ spans
  | cons w rest ih =>
    have shape : all ++ (w :: rest).map Word.bbox = (all ++ [w.bbox]) ++ rest.map Word.bbox := by simp
    have front : all ++ [w.bbox] ⊆ (all ++ [w.bbox]) ++ rest.map Word.bbox := List.subset_append_left _ _
    rw [shape] at fits ⊢
    have step := unionIn_ends_iff hull fun c member => fits c (front member)
    by_cases next : Spans (all ++ [w.bbox])
    · obtain ⟨u, ended⟩ := step.mpr next
      have later := ih (hull.concat checked_keeps ended) next fits
      rw [List.foldlM_cons, ended]
      exact later
    · refine iff_of_false ?_ fun whole => next (whole.mono front)
      rintro ⟨u, ended⟩
      obtain ⟨joined, first, -⟩ := Collect.bind_ok ended
      exact next (step.mp ⟨joined, first⟩)

/-- The region's origin moves the upper left corner of the boxes to a point of `i32`s. -/
structure Placed (region : Option Region) (all : List BBox) : Prop where
  across : ∀ r ∈ region, (∀ a ∈ all, -2147483648 ≤ a.x + r.x) ∧ ∃ a ∈ all, a.x + r.x ≤ 2147483647
  down : ∀ r ∈ region, (∀ a ∈ all, -2147483648 ≤ a.y + r.y) ∧ ∃ a ∈ all, a.y + r.y ≤ 2147483647

theorem inI32_low_iff {all : List BBox} {lo hi : BBox → Int} {low high : Int}
    (hull : Segments.Hull lo hi all low high) (n : Int) :
    Machine.InI32 (low + n) ↔ (∀ a ∈ all, -2147483648 ≤ lo a + n) ∧ ∃ a ∈ all, lo a + n ≤ 2147483647 := by
  obtain ⟨first, member, begins⟩ := hull.low.1
  constructor
  · rintro ⟨above, below⟩
    refine ⟨fun a inAll => ?_, first, member, begins ▸ below⟩
    have lowest := hull.low_le inAll
    omega
  · rintro ⟨above, a, inAll, below⟩
    have own := above first member
    have lowest := hull.low_le inAll
    exact ⟨by omega, by omega⟩

theorem translateIn_checked (b : BBox) (r : Region) : b.translateIn .checked r =
    (fitted (b.x + r.x) >>= fun x => fitted (b.y + r.y) >>= fun y => .ok { b with x, y }) := rfl

theorem translateIn_ends_iff {edge : Int → Int} {all : List BBox} {b : BBox} (hull : IsHull edge all b)
    (r : Region) : (∃ moved, b.translateIn .checked r = .ok moved) ↔ Placed (some r) all := by
  have across := inI32_low_iff hull.across r.x
  have down := inI32_low_iff hull.down r.y
  rw [translateIn_checked, fitted_bind_ends_iff, fitted_bind_ends_iff, across, down]
  constructor
  · rintro ⟨insideX, insideY, -⟩
    constructor
    · rintro _ ⟨⟩
      exact insideX
    · rintro _ ⟨⟩
      exact insideY
  · intro placed
    exact ⟨placed.across r rfl, placed.down r rfl, _, rfl⟩

end BBox

theorem matchAt_ends_iff {words : List Word} {i : Nat} {first : Word} (found : words[i]? = some first) {n : Nat}
    (inside : i + (n + 1) ≤ words.length) (fits : ∀ w ∈ words, w.bbox.InI32) :
    (∃ m, matchAt .checked words i (n + 1) = .ok m) ↔
      BBox.Spans ((wordsAt words i (n + 1)).map Word.bbox) := by
  have shape := wordsAt_succ found n
  have boxes : ∀ c ∈ [first.bbox] ++ (wordsAt words (i + 1) n).map Word.bbox, c.InI32 := by
    intro c member
    have inRun : c ∈ (wordsAt words i (n + 1)).map Word.bbox := shape ▸ member
    obtain ⟨w, listed, rfl⟩ := List.mem_map.mp inRun
    exact fits w (List.drop_subset i words (List.take_subset (n + 1) _ listed))
  have merged := BBox.fold_ends_iff (BBox.isHull_singleton first.bbox)
    (BBox.spans_singleton (boxes _ (by simp))) boxes
  rw [shape, List.map_cons, ← List.singleton_append, ← merged, matchAt_eq found inside]
  exact bind_ok_ends_iff

namespace Mcp

theorem translatedIn_ends_iff {edge : Int → Int} {all : List BBox} {m : TextMatch}
    (hull : m.bbox.IsHull edge all) (region : Option Region) :
    (∃ moved, translatedIn .checked region m = .ok moved) ↔ BBox.Placed region all := by
  cases region with
  | none => exact iff_of_true ⟨m, rfl⟩ ⟨nofun, nofun⟩
  | some r =>
    rw [← BBox.translateIn_ends_iff hull r]
    exact bind_ok_ends_iff

/-! ### The targets of a table -/

section Table

variable {words : List Word} {caseSensitive : Bool} {query : String} {region : Option Region}

/-- The search and the translation of its matches end when each run can be merged and moved. -/
theorem runs_end_iff (words : List Word) (caseSensitive : Bool) (query : String) (region : Option Region) :
    (∃ found, findWordRunsIn .checked words caseSensitive query = .ok found ∧
      ∀ m ∈ found, ∃ moved, translatedIn .checked region m = .ok moved) ↔
      ∀ i, IsRun sat32 words caseSensitive query i →
        ∃ m, matchAt .checked words i (Text.splitWhitespace query).length = .ok m ∧
          ∃ moved, translatedIn .checked region m = .ok moved := by
  constructor
  · rintro ⟨found, ended, moves⟩ i run
    obtain ⟨starts, -, members, matched⟩ := findWordRunsIn_ok checked_keeps.saturating ended
    obtain ⟨m, member, merged⟩ := exists_of_forall₂ matched ((members i).mpr run)
    exact ⟨m, merged, moves m member⟩
  · intro runs
    obtain ⟨found, ended⟩ := (findWordRunsIn_faults (fun _ => faults_ok _) checked_keeps.saturating
      fun i run => by
        obtain ⟨m, merged, -⟩ := runs i run
        rw [merged]
        exact faults_ok m).ends
    refine ⟨found, ended, fun m member => ?_⟩
    obtain ⟨starts, -, members, matched⟩ := findWordRunsIn_ok checked_keeps.saturating ended
    obtain ⟨i, listed, merged⟩ := exists_of_forall₂ matched.flip member
    obtain ⟨same, again, moves⟩ := runs i ((members i).mp listed)
    rw [merged] at again
    cases again
    exact moves

theorem targetsIn_ends_iff (tsv : String) (minConfidence : Int) (query : String) (caseSensitive : Bool)
    (region : Option Region) :
    (∃ targets, targetsIn .checked tsv minConfidence query caseSensitive region = .ok targets) ↔
      ∃ found, findWordRunsIn .checked (parseTsv tsv minConfidence) caseSensitive query = .ok found ∧
        ∀ m ∈ found, ∃ moved, translatedIn .checked region m = .ok moved := by
  constructor
  · rintro ⟨targets, ended⟩
    obtain ⟨shown, scanned, -⟩ := Collect.bind_ok ended
    obtain ⟨found, searched, moved⟩ := Collect.bind_ok scanned
    exact ⟨found, searched, Collect.collect_each.mp ⟨shown, moved⟩⟩
  · rintro ⟨found, searched, moves⟩
    obtain ⟨moved, collected⟩ := Collect.collect_each.mpr moves
    obtain ⟨targets, centered⟩ : ∃ targets,
        Collect.collect (fun _ m => m.bbox.centerIn .checked) 0 moved = .ok targets :=
      Collect.collect_each.mpr fun m _ => ⟨_, rfl⟩
    refine ⟨targets, ?_⟩
    rw [targetsIn, scanIn, searched]
    show (Collect.collect _ 0 found >>= _) = _
    rw [collected]
    exact centered

theorem translatedIn_faults (m : TextMatch) : Faults (· = .overflow) (translatedIn .checked region m) := by
  cases region with
  | none => exact faults_ok m
  | some r =>
    refine Faults.bind ?_ fun _ _ => faults_ok _
    exact (faults_fitted _).bind fun _ _ => (faults_fitted _).bind fun _ _ => faults_ok _

theorem targetsIn_faults (tsv : String) (minConfidence : Int) (query : String) (caseSensitive : Bool)
    (region : Option Region) :
    Faults (· = .overflow) (targetsIn .checked tsv minConfidence query caseSensitive region) := by
  refine Faults.bind ?_ fun _ _ => faults_collect (fun _ _ => faults_ok _) 0 _
  refine Faults.bind ?_ fun _ _ => faults_collect (fun _ m => translatedIn_faults m) 0 _
  exact findWordRunsIn_inBounds faults_fitted (fun _ => faults_ok _) checked_keeps.saturating

/-- Nothing overflows on the way from a table to the centres of the matches when the boxes of each
run can be merged and the region's origin can be added to them. -/
theorem targets_fit_iff (tsv : String) (minConfidence : Int) (query : String) (caseSensitive : Bool)
    (region : Option Region) :
    targetsIn .checked tsv minConfidence query caseSensitive region ≠ .error .overflow ↔
      ∀ i, IsRun sat32 (parseTsv tsv minConfidence) caseSensitive query i →
        let boxes := (wordsAt (parseTsv tsv minConfidence) i (Text.splitWhitespace query).length).map
          Word.bbox
        BBox.Spans boxes ∧ BBox.Placed region boxes := by
  rw [(targetsIn_faults _ _ _ _ _).ends_iff, targetsIn_ends_iff, runs_end_iff]
  refine forall_congr' fun i => forall_congr' fun run => ?_
  obtain ⟨n, first, length, found, inside⟩ := run.first
  rw [length]
  have merges := matchAt_ends_iff found inside fun w member => parseTsv_fits member
  dsimp only
  rw [← merges]
  constructor
  · rintro ⟨m, merged, moves⟩
    exact ⟨⟨m, merged⟩, (translatedIn_ends_iff (matchAt_ok checked_keeps merged).box region).mp moves⟩
  · rintro ⟨⟨m, merged⟩, placed⟩
    exact ⟨m, merged, (translatedIn_ends_iff (matchAt_ok checked_keeps merged).box region).mpr placed⟩

end Table

/-! ### The target of an element -/

theorem elementPointIn_checked (origin : Int × Int) (e : Element) : elementPointIn .checked origin e =
    (fitted (e.x + e.w.tdiv 2) >>= fun x => fitted (e.y + e.h.tdiv 2) >>= fun y =>
      fitted (origin.1 + x) >>= fun cx => fitted (origin.2 + y) >>= fun cy => .ok (cx, cy)) := by
  have plain : Arithmetic.checked.plain = fitted := rfl
  rw [elementPointIn, Element.centerIn, plain]
  cases fitted (e.x + e.w.tdiv 2) with
  | error _ => rfl
  | ok x => cases fitted (e.y + e.h.tdiv 2) <;> rfl

theorem elementPointIn_faults (origin : Int × Int) (e : Element) :
    Faults (· = .overflow) (elementPointIn .checked origin e) := by
  rw [elementPointIn_checked]
  refine (faults_fitted _).bind fun _ _ => (faults_fitted _).bind fun _ _ => ?_
  exact (faults_fitted _).bind fun _ _ => (faults_fitted _).bind fun _ _ => faults_ok _

/-- The middle of the element is an `i32` within the window and on the screen. -/
structure Reachable (origin : Int × Int) (e : Element) : Prop where
  across : e.x + e.w / 2 ≤ 2147483647
  down : e.y + e.h / 2 ≤ 2147483647
  screenX : InI32 (origin.1 + e.x + e.w / 2)
  screenY : InI32 (origin.2 + e.y + e.h / 2)

theorem elementPoint_fits_iff {origin : Int × Int} {e : Element} (fitsX : InI32 e.x) (fitsY : InI32 e.y)
    (clickable : e.isClickable = true) :
    elementPointIn .checked origin e ≠ .error .overflow ↔ Reachable origin e := by
  obtain ⟨wide, tall⟩ := of_decide_eq_true clickable
  have halfX : e.w.tdiv 2 = e.w / 2 := Int.tdiv_eq_ediv_of_nonneg wide.le
  have halfY : e.h.tdiv 2 = e.h / 2 := Int.tdiv_eq_ediv_of_nonneg tall.le
  rw [(elementPointIn_faults origin e).ends_iff, elementPointIn_checked, halfX, halfY]
  simp only [fitted_bind_ends_iff, ← Int.add_assoc]
  constructor
  · rintro ⟨insideX, insideY, screenX, screenY, -⟩
    exact ⟨insideX.2, insideY.2, screenX, screenY⟩
  · intro reach
    have insideX : InI32 (e.x + e.w / 2) := ⟨by have := fitsX.1; omega, reach.across⟩
    have insideY : InI32 (e.y + e.h / 2) := ⟨by have := fitsY.1; omega, reach.down⟩
    exact ⟨insideX, insideY, reach.screenX, reach.screenY, _, rfl⟩

/-- When the click targets are computed without overflow: those of the matches in a table, and that
of a clickable element. -/
theorem targets_overflow_iff (tsv : String) (minConfidence : Int) (query : String) (caseSensitive : Bool)
    (region : Option Region) (origin : Int × Int) (e : Element) :
    (targetsIn .checked tsv minConfidence query caseSensitive region ≠ .error .overflow ↔
      ∀ i, IsRun sat32 (parseTsv tsv minConfidence) caseSensitive query i →
        let boxes := (wordsAt (parseTsv tsv minConfidence) i (Text.splitWhitespace query).length).map
          Word.bbox
        BBox.Spans boxes ∧ BBox.Placed region boxes) ∧
      (InI32 e.x → InI32 e.y → e.isClickable = true →
        (elementPointIn .checked origin e ≠ .error .overflow ↔ Reachable origin e)) :=
  ⟨targets_fit_iff tsv minConfidence query caseSensitive region, elementPoint_fits_iff⟩

def innerElement : Element := ⟨"push button", "Save", none, 10, 20, 80, 24, 1, "/a"⟩

theorem innerElement_fits : elementPointIn .checked (800, 400) innerElement ≠ .error .overflow :=
  have fits := (targets_overflow_iff "" 0 "save" false none (800, 400) innerElement).2
  (fits (by decide) (by decide) (by decide)).mpr ⟨by decide, by decide, by decide, by decide⟩

/-- A word at the left end of the `i32`s and one in the image. -/
def far : List Word := [⟨"Save", ⟨-2147483648, 10, 80, 30⟩, 95⟩, ⟨"File", ⟨100, 10, 80, 30⟩, 90⟩]

def farTable : String :=
  "5\t1\t1\t1\t1\t1\t-2147483648\t10\t80\t30\t95\tSave\n5\t1\t1\t1\t1\t2\t100\t10\t80\t30\t90\tFile"

theorem parseTsv_farTable : parseTsv farTable 0 = far := by decide +kernel

def edgeRegion : Region := ⟨2147483600, 0, 200, 200⟩

def edgeElement : Element := ⟨"push button", "Save", none, 2147483647, 0, 2, 2, 1, "/a"⟩

/-- The merging of two words, the translation to a region and the middle of an element overflow. -/
theorem far_overflows :
    targetsIn .checked farTable 0 "save file" false none = .error .overflow ∧
      (edgeRegion.validate = .ok () ∧
        targetsIn .checked farTable 0 "file" false (some edgeRegion) = .error .overflow) ∧
      edgeElement.isClickable = true ∧ elementPointIn .checked (0, 0) edgeElement = .error .overflow := by
  simp only [targetsIn, scanIn, parseTsv_farTable]
  decide +kernel

end Mcp

end HyprPilot
