import HyprPilot.Base.Binary32
import HyprPilot.Base.TextLines
import HyprPilot.Vision.Ocr

/-!
# Tesseract's table

`parse_tsv`: the words of a table with one row a line and the columns level, page, block, paragraph,
line, word, left, top, width, height, confidence and text.
-/

namespace HyprPilot

namespace Tsv

/-- A confidence that is no number counts as tesseract's own -1. -/
def confidence (cell : String) : Int := ((Binary32.parse cell).map Binary32.toI32).getD (-1)

def wordOfCells (minConfidence : Int) (level left top width height conf text : String) : Option Word :=
  match Text.parseI32 level with
  | .error _ => none
  | .ok level =>
    let conf := confidence conf
    let text := Text.trim text
    if level ≠ 5 then none
    else if conf < 0 ∨ conf < minConfidence then none
    else if text.isEmpty then none
    else
      match Text.parseI32 left, Text.parseI32 top, Text.parseI32 width, Text.parseI32 height with
      | .ok x, .ok y, .ok w, .ok h => some ⟨text, ⟨x, y, w, h⟩, conf⟩
      | _, _, _, _ => none

/-- The word that the line at the index adds. -/
def wordOfLine (minConfidence : Int) (i : Nat) (line : String) : Option Word :=
  if i = 0 ∧ Text.startsWith "level\t" line then none
  else if (Text.trim line).isEmpty then none
  else
    match Text.splitOn '\t' line with
    | level :: _ :: _ :: _ :: _ :: _ :: left :: top :: width :: height :: conf :: text :: _ =>
      wordOfCells minConfidence level left top width height conf text
    | _ => none

end Tsv

def parseTsv (tsv : String) (minConfidence : Int) : List Word :=
  (Text.lines tsv).zipIdx.filterMap fun (line, i) => Tsv.wordOfLine minConfidence i line

/-! ### What a row with a word holds -/

namespace Tsv

variable {minConfidence : Int} {line : String} {w : Word}

def boxPlaces : List Nat := [6, 7, 8, 9]

/-- What the cells of a row show when the row adds a word. -/
structure Reads (cells : List String) : Prop where
  columns : 12 ≤ cells.length
  level : ∃ cell, cells[0]? = some cell ∧ Text.parseI32 cell = .ok 5
  sure : ∃ cell, cells[10]? = some cell ∧ 0 ≤ confidence cell
  box : ∀ place ∈ boxPlaces, ∃ cell n, cells[place]? = some cell ∧ Text.parseI32 cell = .ok n

theorem wordOfCells_eq_some {level left top width height conf text : String} :
    wordOfCells minConfidence level left top width height conf text = some w ↔
      Text.parseI32 level = .ok 5 ∧ 0 ≤ confidence conf ∧ minConfidence ≤ confidence conf ∧
        (Text.trim text).isEmpty = false ∧ Text.parseI32 left = .ok w.bbox.x ∧
        Text.parseI32 top = .ok w.bbox.y ∧ Text.parseI32 width = .ok w.bbox.w ∧
        Text.parseI32 height = .ok w.bbox.h ∧ w.text = Text.trim text ∧
        w.confidence = confidence conf := by
  constructor
  · intro read
    unfold wordOfCells at read
    split at read
    · cases read
    · rename_i n readLevel
      dsimp only at read
      split_ifs at read with other unsure blank
      split at read
      · rename_i x y w' h readX readY readW readH
        cases read
        rw [not_not] at other
        rw [not_or, not_lt, not_lt] at unsure
        exact ⟨other ▸ readLevel, unsure.1, unsure.2, Bool.eq_false_of_not_eq_true blank, readX,
          readY, readW, readH, rfl, rfl⟩
      · cases read
  · rintro ⟨level, sure, enough, shown, left, top, width, height, text, certain⟩
    have kept : ¬(confidence conf < 0 ∨ confidence conf < minConfidence) := by
      rw [not_or, not_lt, not_lt]
      exact ⟨sure, enough⟩
    obtain ⟨_, ⟨x, y, w', h⟩, _⟩ := w
    dsimp only at left top width height text certain
    unfold wordOfCells
    rw [level]
    dsimp only
    rw [if_neg (by decide), if_neg kept, shown, left, top, width, height, text, certain]
    rfl

theorem wordOfLine_eq_some {i : Nat} (read : wordOfLine minConfidence i line = some w) :
    (Text.trim line).isEmpty = false ∧
      ∃ level page block par number word left top width height conf text rest,
        Text.splitOn '\t' line = level :: page :: block :: par :: number :: word ::
          left :: top :: width :: height :: conf :: text :: rest ∧
        wordOfCells minConfidence level left top width height conf text = some w := by
  unfold wordOfLine at read
  split_ifs at read with header blank
  refine ⟨Bool.eq_false_of_not_eq_true blank, ?_⟩
  split at read
  · exact ⟨_, _, _, _, _, _, _, _, _, _, _, _, _, ‹_›, read⟩
  · cases read

theorem reads_of_wordOfLine {i : Nat} (read : wordOfLine minConfidence i line = some w) :
    Reads (Text.splitOn '\t' line) := by
  obtain ⟨-, level, page, block, par, number, word, left, top, width, height, conf, text, rest, shape,
    cells⟩ := wordOfLine_eq_some read
  obtain ⟨readLevel, sure, -, -, x, y, w, h, -, -⟩ := wordOfCells_eq_some.mp cells
  rw [shape]
  refine ⟨by simp, ⟨level, rfl, readLevel⟩, ⟨conf, rfl, sure⟩, ?_⟩
  simp only [boxPlaces, List.forall_mem_cons, List.not_mem_nil, false_imp_iff, implies_true, and_true]
  exact ⟨⟨left, _, rfl, x⟩, ⟨top, _, rfl, y⟩, ⟨width, _, rfl, w⟩, ⟨height, _, rfl, h⟩⟩

end Tsv

/-- Every box of the table is a box of `i32`s. -/
theorem parseTsv_fits {tsv : String} {minConfidence : Int} {w : Word} (member : w ∈ parseTsv tsv minConfidence) :
    w.bbox.InI32 := by
  obtain ⟨⟨line, i⟩, -, read⟩ := List.mem_filterMap.mp member
  obtain ⟨-, _, _, _, _, _, _, _, _, _, _, _, _, _, -, cells⟩ := Tsv.wordOfLine_eq_some read
  obtain ⟨-, -, -, -, x, y, width, height, -, -⟩ := Tsv.wordOfCells_eq_some.mp cells
  exact ⟨Text.parseI32_inI32 x, Text.parseI32_inI32 y, Text.parseI32_inI32 width,
    Text.parseI32_inI32 height⟩

end HyprPilot
