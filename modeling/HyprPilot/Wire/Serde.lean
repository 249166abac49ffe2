import HyprPilot.Wire.Form
import HyprPilot.Wire.JsonHeld
import HyprPilot.Wire.JsonLine

/-!
# The JSON library

What the program takes from the JSON library: compact and indented texts of values, the reading of a
text, and the values in memory that are made of what was read, with the documented facts that it relies
on. The texts of `JsonText` have them.
-/

namespace HyprPilot
open JsonText (Fits IsFloat IsContainer)

/-- A text is read as the value that it spells, each number by its own text. -/
structure Serde where
  toString : Json → String
  toStringPretty : Json → String
  fromStr : String → Option Json
  /-- What the library says about a text that it does not read. -/
  explain : String → String
  /-- The texts of the fractional numbers in memory. -/
  Holds : String → Prop
  /-- The text of the number that is read of a fractional number's text. -/
  rounded : String → String

namespace Serde

/-- A value without fractional numbers is read back. A compact text has no line break, an object's
text ends with its brace, and the text of an object or array that is cut off is not read. -/
structure Documented (serde : Serde) : Prop where
  compact : ∀ {v}, Fits NoFloat 127 v → serde.fromStr (serde.toString v) = some v
  pretty : ∀ {v}, Fits NoFloat 127 v → serde.fromStr (serde.toStringPretty v) = some v
  oneLine : ∀ {v}, Fits IsFloat 127 v → '\n' ∉ (serde.toString v).toList
  brace : ∀ {fields}, Fits IsFloat 127 (.obj fields) →
    ∃ front, (serde.toString (.obj fields)).toList = front ++ ['}']
  cutOff : ∀ {v}, IsContainer v → Fits IsFloat 127 v → ∀ {part : String} {w},
    part.toList <+: (serde.toString v).toList → serde.fromStr part = some w →
    part = serde.toString v
  cutOffPretty : ∀ {v}, IsContainer v → Fits IsFloat 127 v → ∀ {part : String} {w},
    part.toList <+: (serde.toStringPretty v).toList → serde.fromStr part = some w →
    part = serde.toStringPretty v

/-- Nothing is no text. -/
theorem Documented.empty {serde : Serde} (documented : serde.Documented) : serde.fromStr "" = none := by
  have fits : Fits IsFloat 127 (.obj []) := .obj (by simp) (by simp)
  cases read : serde.fromStr "" with
  | none => rfl
  | some v =>
    have container : IsContainer (.obj []) := trivial
    have whole : "" = serde.toString (.obj []) := documented.cutOff container fits List.nil_prefix read
    obtain ⟨front, last⟩ := documented.brace fits
    rw [← whole] at last
    simp at last

/-- The value in memory that is made of what was read. -/
def value (serde : Serde) (v : Json) : Json := v.held serde.rounded

/-- Fractional numbers are read back, too, and what was read can be held and printed. -/
structure Complete (serde : Serde) : Prop extends serde.Documented where
  floats : ∀ {text}, serde.Holds text → IsFloat text
  whole : ∀ {v}, Fits serde.Holds 127 v → serde.fromStr (serde.toString v) = some v
  reads : ∀ {text v}, serde.fromStr text = some v → Fits serde.Holds 127 (serde.value v)

def plain : Serde where
  toString := JsonText.print JsonText.compact
  toStringPretty := JsonText.print JsonText.indented
  fromStr := JsonText.parse
  explain _ := "expected value"
  Holds := IsFloat
  rounded := id

theorem fits_of_noFloat {floats : String → Prop} {depth : Nat} {v : Json} (fits : Fits NoFloat depth v) :
    Fits floats depth v := by
  induction fits with
  | null => exact .null
  | bool b => exact .bool b
  | int range => exact .int range
  | float none => exact none.elim
  | str s => exact .str s
  | arr _ ih => exact .arr ih
  | obj distinct _ ih => exact .obj distinct ih

theorem Complete.isFloat {serde : Serde} (complete : serde.Complete) {depth : Nat} {v : Json}
    (fits : Fits serde.Holds depth v) : Fits IsFloat depth v := by
  induction fits with
  | null => exact .null
  | bool b => exact .bool b
  | int range => exact .int range
  | float text => exact .float (complete.floats text)
  | str s => exact .str s
  | arr _ ih => exact .arr ih
  | obj distinct _ ih => exact .obj distinct ih

theorem plain_cutOff {layout : JsonText.Layout} (white : layout.White) {v : Json}
    (container : IsContainer v) (fits : Fits IsFloat 127 v) {part : String} {w : Json}
    (begins : part.toList <+: (JsonText.print layout v).toList)
    (accepted : JsonText.parse part = some w) : part = JsonText.print layout v := by
  have chars : (JsonText.print layout v).toList = JsonText.render layout 0 v := String.toList_ofList
  have same : String.ofList part.toList = part := String.ofList_toList
  rw [chars] at begins
  have whole := JsonText.parse_beginning white container fits begins (by rw [same]; exact accepted)
  rw [← chars] at whole
  exact String.toList_inj.mp whole

theorem plain_documented : plain.Documented where
  compact fits := JsonText.parse_print JsonText.compact_white (fits_of_noFloat fits)
  pretty fits := JsonText.parse_print JsonText.indented_white (fits_of_noFloat fits)
  oneLine {v} fits newline := by
    have chars : (plain.toString v).toList = JsonText.render JsonText.compact 0 v := String.toList_ofList
    rw [chars] at newline
    exact absurd (JsonText.visible_render fits 0 '\n' newline) (by decide)
  brace {fields} _ := by
    have chars : (plain.toString (.obj fields)).toList = JsonText.render JsonText.compact 0 (.obj fields) :=
      String.toList_ofList
    rw [chars]
    exact JsonText.render_object_last JsonText.compact 0 fields
  cutOff container fits := plain_cutOff JsonText.compact_white container fits
  cutOffPretty container fits := plain_cutOff JsonText.indented_white container fits

theorem plain_complete : plain.Complete where
  toDocumented := plain_documented
  floats text := text
  whole fits := JsonText.parse_print JsonText.compact_white fits
  reads read := JsonText.parse_fits read

end Serde

end HyprPilot
