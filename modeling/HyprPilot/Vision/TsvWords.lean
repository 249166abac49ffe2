import HyprPilot.Vision.Tsv

/-!
# The words of a table

A table shows words one row each, among rows that show none: headers, blank lines, rows of other
levels, rows without a confidence and broken rows. Whatever the mix, the words are read back with
their boxes, in order, and nothing else.
-/

namespace HyprPilot

/-- A word as recognised: its text stands in one cell. -/
structure Word.Recognised (w : Word) : Prop where
  inhabited : w.text ≠ ""
  trimmed : Text.Trimmed w.text
  tabless : '\t' ∉ w.text.toList
  oneLine : '\n' ∉ w.text.toList
  noReturn : '\r' ∉ w.text.toList
  box : w.bbox.InI32
  sure : 0 ≤ w.confidence
  percent : w.confidence ≤ 100

namespace Tsv

def boxCells (b : BBox) : List String := [toString b.x, toString b.y, toString b.w, toString b.h]

/-- Where on the page a word is: one cell each. -/
structure Place where
  page : String
  block : String
  par : String
  line : String
  word : String

def Place.cells (place : Place) : List String :=
  [place.page, place.block, place.par, place.line, place.word]

def cells (place : Place) (w : Word) : List String :=
  "5" :: place.cells ++ boxCells w.bbox ++ [toString w.confidence, w.text]

/-- The line is a row of level 5 with the word. -/
def Shows (line : String) (w : Word) : Prop :=
  ∃ place : Place, (∀ cell ∈ place.cells, '\t' ∉ cell.toList ∧ '\n' ∉ cell.toList) ∧
    line = Text.joinWith "\t" (cells place w)

/-- The rows that show no word. -/
inductive Skipped (line : String) : Prop
  | header (begins : Text.startsWith "level\t" line = true)
  | blank (white : ∀ c ∈ line.toList, Text.isWhite c = true)
  | short (few : (Text.splitOn '\t' line).length < 12)
  | otherLevel {cell : String} {level : Int} (first : (Text.splitOn '\t' line)[0]? = some cell)
    (number : Text.parseI32 cell = .ok level) (other : level ≠ 5)
  | unsure {cell : String} (shown : (Text.splitOn '\t' line)[10]? = some cell)
    (minusOne : Binary32.parse cell = some (.finite (-1)))
  | notNumeric {place : Nat} {cell : String} {e : Text.ParseIntError} (column : place ∈ 0 :: boxPlaces)
    (shown : (Text.splitOn '\t' line)[place]? = some cell) (unread : Text.parseI32 cell = .error e)

/-- Rows with words and rows without in any order. -/
inductive Interleaved : List String → List Word → Prop
  | nil : Interleaved [] []
  | word {line : String} {w : Word} {lines : List String} {words : List Word}
    (recognised : w.Recognised) (shows : Shows line w) (rest : Interleaved lines words) :
    Interleaved (line :: lines) (w :: words)
  | skipped {line : String} {lines : List String} {words : List Word}
    (skipped : Skipped line) (oneLine : '\n' ∉ line.toList) (rest : Interleaved lines words) :
    Interleaved (line :: lines) words

variable {line : String} {w : Word} {minConfidence : Int}

theorem first_of_header (begins : Text.startsWith "level\t" line = true) :
    (Text.splitOn '\t' line)[0]? = some "level" := by
  obtain ⟨rest, rfl⟩ := Text.startsWith_iff.mp begins
  have tab : "level\t" ++ rest = "level" ++ String.singleton '\t' ++ rest := rfl
  rw [tab, Text.splitOn_append (by decide)]
  rfl

/-! ### Rows with a word -/

theorem cells_clear {place : Place} {c : Char} (digitless : c.isDigit = false) (minus : c ≠ '-')
    (placeClear : ∀ cell ∈ place.cells, c ∉ cell.toList) (textClear : c ∉ w.text.toList) :
    ∀ cell ∈ cells place w, c ∉ cell.toList := by
  have five : c ∉ "5".toList := by
    intro member
    rw [List.mem_singleton.mp member] at digitless
    cases digitless
  have numbers := Text.absent_of_toString digitless minus
  intro cell member
  rw [cells, List.cons_append, List.cons_append, List.mem_cons, List.mem_append, List.mem_append] at member
  rcases member with rfl | (inPlace | inBox) | inLast
  · exact five
  · exact placeClear cell inPlace
  · simp only [boxCells, List.mem_cons, List.not_mem_nil, or_false] at inBox
    rcases inBox with rfl | rfl | rfl | rfl
    all_goals exact numbers _
  · simp only [List.mem_cons, List.not_mem_nil, or_false] at inLast
    rcases inLast with rfl | rfl
    · exact numbers _
    · exact textClear

theorem splitOn_of_shows (recognised : w.Recognised) (shows : Shows line w) :
    ∃ place : Place, Text.splitOn '\t' line = cells place w := by
  obtain ⟨place, clear, rfl⟩ := shows
  have apart := cells_clear (c := '\t') (by decide) (by decide) (fun cell member => (clear cell member).1)
    recognised.tabless
  exact ⟨place, Text.splitOn_joinWith (List.cons_ne_nil _ _) apart⟩

theorem oneLine_of_shows (recognised : w.Recognised) (shows : Shows line w) : '\n' ∉ line.toList := by
  obtain ⟨place, clear, rfl⟩ := shows
  have apart := cells_clear (c := '\n') (by decide) (by decide) (fun cell member => (clear cell member).2)
    recognised.oneLine
  intro member
  rcases Text.mem_joinWith member with inTab | ⟨cell, listed, inCell⟩
  · exact absurd inTab (by decide)
  · exact apart cell listed inCell

theorem five_of_shows (shows : Shows line w) : '5' ∈ line.toList := by
  obtain ⟨place, -, rfl⟩ := shows
  rw [cells, List.cons_append, List.cons_append, Text.joinWith_cons _ _ (by simp)]
  simp

theorem chomp_of_shows (recognised : w.Recognised) (shows : Shows line w) : Text.chomp line = line := by
  obtain ⟨place, shape⟩ := splitOn_of_shows recognised shows
  rcases Text.chomp_cases line with ⟨same, -⟩ | returned
  · exact same
  · obtain ⟨front, last, -, grown⟩ :=
      Text.splitOn_concat (show '\t' ≠ '\r' by decide) (Text.chomp line)
    have whole : Text.chomp line ++ String.singleton '\r' = line := returned.symm
    rw [whole, shape] at grown
    have ends := congrArg List.getLast? grown
    rw [List.getLast?_concat] at ends
    have text : w.text = last ++ String.singleton '\r' := Option.some.inj ends
    have noReturn := recognised.noReturn
    rw [text] at noReturn
    simp at noReturn

theorem confidence_toString (recognised : w.Recognised) :
    confidence (toString w.confidence) = w.confidence := by
  obtain ⟨low, high⟩ := And.intro recognised.sure recognised.percent
  have small : w.confidence.natAbs < 2 ^ 24 := by omega
  have fits : Machine.InI32 w.confidence := ⟨by omega, by omega⟩
  rw [confidence, Binary32.parse_toString small, Option.map_some, Binary32.toI32_intCast fits]
  rfl

theorem wordOfCells_of_recognised (recognised : w.Recognised) (kept : minConfidence ≤ w.confidence) :
    wordOfCells minConfidence "5" (toString w.bbox.x) (toString w.bbox.y) (toString w.bbox.w)
      (toString w.bbox.h) (toString w.confidence) w.text = some w := by
  have text := Text.trim_of_trimmed recognised.trimmed
  have sure := confidence_toString recognised
  have shown : w.text.isEmpty = false := Bool.eq_false_of_not_eq_true fun blank =>
    recognised.inhabited (String.isEmpty_iff.mp blank)
  obtain ⟨x, y, width, height⟩ := recognised.box
  refine wordOfCells_eq_some.mpr ⟨by decide, ?_, ?_, ?_, Text.parseI32_toString x,
    Text.parseI32_toString y, Text.parseI32_toString width, Text.parseI32_toString height, text.symm,
    sure.symm⟩
  · rw [sure]
    exact recognised.sure
  · rwa [sure]
  · rw [text]
    exact shown

theorem wordOfCells_of_unsure {level left top width height conf text : String}
    (below : confidence conf < minConfidence) :
    wordOfCells minConfidence level left top width height conf text = none := by
  rw [Option.eq_none_iff_forall_not_mem]
  intro w read
  obtain ⟨-, -, enough, -⟩ := wordOfCells_eq_some.mp read
  omega

theorem wordOfLine_of_shows (recognised : w.Recognised) (shows : Shows line w) (i : Nat) :
    wordOfLine minConfidence i line = if minConfidence ≤ w.confidence then some w else none := by
  obtain ⟨place, shape⟩ := splitOn_of_shows recognised shows
  have headless : ¬(i = 0 ∧ Text.startsWith "level\t" line = true) := by
    rintro ⟨-, begins⟩
    have first := first_of_header begins
    rw [shape] at first
    exact absurd (Option.some.inj first) (by decide)
  have dark : ¬(Text.trim line).isEmpty = true := fun blank =>
    absurd (Text.trim_isEmpty_iff.mp blank '5' (five_of_shows shows)) (by decide)
  rw [wordOfLine, if_neg headless, if_neg dark, shape]
  show wordOfCells minConfidence "5" (toString w.bbox.x) (toString w.bbox.y) (toString w.bbox.w)
      (toString w.bbox.h) (toString w.confidence) w.text = _
  by_cases kept : minConfidence ≤ w.confidence
  · rw [if_pos kept, wordOfCells_of_recognised recognised kept]
  · rw [if_neg kept, wordOfCells_of_unsure]
    rw [confidence_toString recognised]
    omega

/-! ### Rows without a word -/

theorem Reads.numeric {cells : List String} (reads : Reads cells) {place : Nat}
    (column : place ∈ 0 :: boxPlaces) :
    ∃ cell n, cells[place]? = some cell ∧ Text.parseI32 cell = .ok n := by
  rcases List.mem_cons.mp column with rfl | inBox
  · obtain ⟨cell, first, five⟩ := reads.level
    exact ⟨cell, 5, first, five⟩
  · exact reads.box place inBox

theorem Skipped.not_reads (skipped : Skipped line) (dark : (Text.trim line).isEmpty = false) :
    ¬Reads (Text.splitOn '\t' line) := by
  intro reads
  cases skipped with
  | header begins =>
    obtain ⟨cell, first, number⟩ := reads.level
    rw [first_of_header begins] at first
    cases first
    exact absurd number (by decide)
  | blank white =>
    rw [Text.trim_isEmpty_iff.mpr white] at dark
    cases dark
  | short few => exact absurd reads.columns (by omega)
  | otherLevel first number other =>
    obtain ⟨cell, sameFirst, five⟩ := reads.level
    rw [first] at sameFirst
    cases sameFirst
    rw [number] at five
    exact other (Except.ok.inj five)
  | unsure shown minusOne =>
    obtain ⟨cell, same, sure⟩ := reads.sure
    rw [shown] at same
    cases same
    rw [confidence, minusOne] at sure
    exact absurd sure (by decide +kernel)
  | notNumeric column shown unread =>
    obtain ⟨cell, n, same, number⟩ := reads.numeric column
    rw [shown] at same
    cases same
    rw [unread] at number
    cases number

theorem wordOfLine_of_skipped (skipped : Skipped line) (i : Nat) : wordOfLine minConfidence i line = none := by
  rw [Option.eq_none_iff_forall_not_mem]
  intro w read
  exact skipped.not_reads (wordOfLine_eq_some read).1 (reads_of_wordOfLine read)

/-- A carriage return at the end of a row is part of its last cell, which decides nothing. -/
theorem Skipped.chomp (skipped : Skipped line) : Skipped (Text.chomp line) := by
  rcases Text.chomp_cases line with ⟨same, -⟩ | returned
  · rwa [same]
  · obtain ⟨front, last, shape, grown⟩ :=
      Text.splitOn_concat (show '\t' ≠ '\r' by decide) (Text.chomp line)
    have whole : Text.chomp line ++ String.singleton '\r' = line := returned.symm
    rw [whole] at grown
    by_cases few : (Text.splitOn '\t' (Text.chomp line)).length < 12
    · exact .short few
    · have early {place : Nat} (low : place < 11) :
          (Text.splitOn '\t' (Text.chomp line))[place]? = (Text.splitOn '\t' line)[place]? := by
        rw [shape, List.length_append, List.length_singleton] at few
        rw [shape, grown, List.getElem?_append_left (by omega), List.getElem?_append_left (by omega)]
      cases skipped with
      | header begins =>
        have first := (early (by decide)).trans (first_of_header begins)
        exact .notNumeric List.mem_cons_self first (by decide : Text.parseI32 "level" = .error .invalidDigit)
      | blank white =>
        refine .blank fun c member => white c ?_
        rw [returned, String.toList_append]
        exact List.mem_append_left _ member
      | short fewer =>
        rw [grown, List.length_append, List.length_singleton] at fewer
        rw [shape, List.length_append, List.length_singleton] at few
        exact absurd fewer few
      | otherLevel first number other => exact .otherLevel ((early (by decide)).trans first) number other
      | unsure shown minusOne => exact .unsure ((early (by decide)).trans shown) minusOne
      | notNumeric column shown unread =>
        refine .notNumeric column ((early ?_).trans shown) unread
        simp only [boxPlaces, List.mem_cons, List.not_mem_nil, or_false] at column
        omega

/-! ### The table -/

theorem interleaved_ended {lines : List String} {words : List Word} (mixed : Interleaved lines words) :
    Interleaved (Text.ended lines) words := by
  induction mixed with
  | nil => exact .nil
  | @word line w lines words recognised shows rest ih =>
    cases lines with
    | nil =>
      have shown : ¬line.isEmpty = true := by
        intro blank
        have five := five_of_shows shows
        rw [String.isEmpty_iff.mp blank] at five
        cases five
      rw [Text.ended, if_neg shown]
      exact .word recognised shows rest
    | cons next lines =>
      refine .word recognised ?_ ih
      rwa [chomp_of_shows recognised shows]
  | @skipped line lines words skipped oneLine rest ih =>
    cases lines with
    | nil =>
      rw [Text.ended]
      split
      · exact rest
      · exact .skipped skipped oneLine rest
    | cons next lines =>
      exact .skipped skipped.chomp (fun member => oneLine (Text.mem_of_mem_chomp member)) ih

theorem filterMap_interleaved {lines : List String} {words : List Word} (mixed : Interleaved lines words)
    (k : Nat) : (lines.zipIdx k).filterMap (fun (line, i) => wordOfLine minConfidence i line) =
      words.filter (minConfidence ≤ ·.confidence) := by
  induction mixed generalizing k with
  | nil => rfl
  | @word line w lines words recognised shows rest ih =>
    have read : wordOfLine minConfidence k line = if minConfidence ≤ w.confidence then some w else none :=
      wordOfLine_of_shows recognised shows k
    by_cases kept : minConfidence ≤ w.confidence
    · rw [if_pos kept] at read
      rw [List.filter_cons_of_pos (by simpa using kept)]
      simp only [List.zipIdx_cons, List.filterMap_cons, read, ih]
    · rw [if_neg kept] at read
      rw [List.filter_cons_of_neg (by simpa using kept)]
      simp only [List.zipIdx_cons, List.filterMap_cons, read, ih]
  | skipped skipped oneLine rest ih =>
    simp only [List.zipIdx_cons, List.filterMap_cons, wordOfLine_of_skipped skipped, ih]

theorem clear_of_interleaved {lines : List String} {words : List Word} (mixed : Interleaved lines words) :
    ∀ line ∈ lines, '\n' ∉ line.toList := by
  induction mixed with
  | nil => exact List.forall_mem_nil _
  | word recognised shows rest ih => exact List.forall_mem_cons.mpr ⟨oneLine_of_shows recognised shows, ih⟩
  | skipped skipped oneLine rest ih => exact List.forall_mem_cons.mpr ⟨oneLine, ih⟩

/-- The table of the rows gives back the words of the rows that are sure enough, in their order. -/
theorem parseTsv_interleaved {lines : List String} {words : List Word} (mixed : Interleaved lines words)
    (minConfidence : Int) : parseTsv (Text.joinWith "\n" lines) minConfidence =
      words.filter (minConfidence ≤ ·.confidence) := by
  cases lines with
  | nil =>
    cases mixed
    rfl
  | cons line lines =>
    have split : Text.splitOn '\n' (Text.joinWith "\n" (line :: lines)) = line :: lines :=
      Text.splitOn_joinWith (List.cons_ne_nil _ _) (clear_of_interleaved mixed)
    rw [parseTsv, Text.lines, split]
    exact filterMap_interleaved (interleaved_ended mixed) 0

/-! ### A table -/

def save : Word := ⟨"Save", ⟨10, 10, 80, 30⟩, 95⟩

def saveRow : String := "5\t1\t1\t1\t1\t1\t10\t10\t80\t30\t95\tSave"

def faint : Word := ⟨"low_conf", ⟨-3, 10, 100, 30⟩, 30⟩

def faintRow : String := "5\t1\t1\t1\t1\t3\t-3\t10\t100\t30\t30\tlow_conf"

def sample : List String :=
  ["level\tpage_num\tblock_num\tpar_num\tline_num\tword_num\tleft\ttop\twidth\theight\tconf\ttext",
    "4\t1\t1\t1\t1\t0\t10\t10\t900\t100\t-1\t", saveRow,
    "5\t1\t1\t1\t1\t4\t320\t10\t60\t30\t-1\tFile", faintRow,
    "5\t1\t1\t1\t1\t1\tnotanum\t10\t80\t30\t95\tBroken", "short\trow", ""]

theorem save_recognised : save.Recognised where
  inhabited := by decide
  trimmed := by constructor <;> intro c shown <;> cases shown <;> rfl
  tabless := by decide
  oneLine := by decide
  noReturn := by decide
  box := ⟨by decide, by decide, by decide, by decide⟩
  sure := by decide
  percent := by decide

theorem faint_recognised : faint.Recognised where
  inhabited := by decide
  trimmed := by constructor <;> intro c shown <;> cases shown <;> rfl
  tabless := by decide
  oneLine := by decide
  noReturn := by decide
  box := ⟨by decide, by decide, by decide, by decide⟩
  sure := by decide
  percent := by decide

theorem sample_interleaved : Interleaved sample [save, faint] := by
  have first : Shows saveRow save := ⟨⟨"1", "1", "1", "1", "1"⟩, by decide, by decide⟩
  have second : Shows faintRow faint := ⟨⟨"1", "1", "1", "1", "3"⟩, by decide, by decide⟩
  refine .skipped (.header (by decide)) (by decide) ?_
  refine .skipped (.otherLevel rfl (by decide : Text.parseI32 "4" = .ok 4) (by decide)) (by decide) ?_
  refine .word save_recognised first ?_
  refine .skipped (.unsure rfl (by decide +kernel : Binary32.parse "-1" = _)) (by decide) ?_
  refine .word faint_recognised second ?_
  refine .skipped (.notNumeric (by decide : 6 ∈ 0 :: boxPlaces) rfl
    (by decide : Text.parseI32 "notanum" = .error .invalidDigit)) (by decide) ?_
  refine .skipped (.short (by decide)) (by decide) ?_
  exact .skipped (.blank (by simp)) (by decide) .nil

theorem parseTsv_sample : parseTsv (Text.joinWith "\n" sample) 50 = [save] :=
  (parseTsv_interleaved sample_interleaved 50).trans (by decide)

end Tsv

end HyprPilot
