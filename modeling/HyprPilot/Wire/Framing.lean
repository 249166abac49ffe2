import HyprPilot.Base.Lines
import HyprPilot.Base.Utf8
import HyprPilot.Wire.Requests
import HyprPilot.Wire.Serde

/-!
# Requests on the socket

What the client writes for a request and what the daemon's loop over a connection hears: a line at a
time, without the white space at its end. The daemon hears the requests that were written, in their
order, and when the connection breaks off the first ones of them and at most a line that is none.
-/

namespace HyprPilot
open JsonText (Fits)

namespace Wire

def newline : UInt8 := 10

def isNewline (b : UInt8) : Bool := b == newline

def dropEnd (p : Char → Bool) (s : String) : String := String.ofList (s.toList.rdropWhile p)

def trimEnd (s : String) : String := dropEnd Text.isWhite s

section DropEnd

variable {p : Char → Bool} {text : String} {c : Char}

theorem dropEnd_of_last {front : List Char} (last : text.toList = front ++ [c]) (kept : p c = false) :
    dropEnd p text = text := by
  rw [dropEnd, last, List.rdropWhile_concat_neg _ _ _ (by simp [kept]), ← last, String.ofList_toList]

theorem dropEnd_singleton (dropped : p c = true) (text : String) :
    dropEnd p (text ++ String.singleton c) = dropEnd p text := by
  have shape : (text ++ String.singleton c).toList = text.toList ++ [c] := by simp
  rw [dropEnd, shape, List.rdropWhile_concat_pos _ _ _ dropped, dropEnd]

end DropEnd

/-! ### Lines -/

section Lines

variable {text : String}

def line (text : String) : List UInt8 := Text.utf8Bytes text ++ [newline]

theorem newline_notMem (oneLine : '\n' ∉ text.toList) : ∀ b ∈ Text.utf8Bytes text, isNewline b = false := by
  intro b inside
  rw [isNewline, beq_eq_false_iff_ne]
  rintro rfl
  exact Text.ascii_notMem (by decide) oneLine inside

theorem isLine_line (oneLine : '\n' ∉ text.toList) : Lines.IsLine isNewline (line text) :=
  Lines.isLine_append rfl (newline_notMem oneLine)

theorem line_eq (text : String) : line text = Text.utf8Bytes (text ++ "\n") := by
  rw [line, Text.utf8Bytes_append]
  rfl

theorem fromUtf8_line (text : String) : Text.fromUtf8 (line text) = some (text ++ "\n") :=
  Text.fromUtf8_eq_some.mpr (line_eq text).symm

theorem trimEnd_newline (text : String) : trimEnd (text ++ "\n") = trimEnd text :=
  dropEnd_singleton (by decide : Text.isWhite '\n' = true) text

theorem trimEnd_begins (text : String) : (trimEnd text).toList <+: text.toList := by
  rw [trimEnd, dropEnd, String.toList_ofList]
  exact List.rdropWhile_prefix Text.isWhite text.toList

/-- A valid beginning of a line is the line, with or without its end, or stops in the text. -/
theorem part_of_line {part : List UInt8} {s : String} (begins : part <+: line text)
    (decoded : Text.fromUtf8 part = some s) : part = line text ∨ s.toList <+: text.toList := by
  have bytes := Text.fromUtf8_eq_some.mp decoded
  rcases List.prefix_concat_iff.mp begins with whole | short
  · exact .inl whole
  · right
    rw [← bytes] at short
    exact Text.prefix_of_utf8Bytes short

end Lines

/-! ### What is heard -/

/-- A line with a request, or one that is answered with a parse error. -/
inductive Heard where
  | request (env : RequestEnvelope)
  | malformed (error : String)
  deriving DecidableEq

variable (serde : Serde)

def hear (text : String) : Heard :=
  match (serde.fromStr (trimEnd text)).bind RequestEnvelope.read with
  | some env => .request env
  | none => .malformed (serde.explain (trimEnd text))

/-- The lines of a connection until it ends; bytes that are no text end it, too. -/
def hearLines : Nat → List UInt8 → List Heard
  | 0, _ => []
  | fuel + 1, bytes =>
    if bytes = [] then []
    else
      let (line, rest) := (Lines.cut isNewline bytes).getD (bytes, [])
      match Text.fromUtf8 line with
      | none => []
      | some text => hear serde text :: hearLines fuel rest

def heard (bytes : List UInt8) : List Heard := hearLines serde bytes.length bytes

def requestText (env : RequestEnvelope) : String := serde.toString env.write

def written (envs : List RequestEnvelope) : List UInt8 := envs.flatMap fun env => line (requestText serde env)

theorem length_le_written (envs : List RequestEnvelope) : envs.length ≤ (written serde envs).length := by
  induction envs with
  | nil => simp [written]
  | cons env envs ih =>
    rw [written, List.flatMap_cons, ← written, List.length_append, line, List.length_append,
      List.length_cons, List.length_singleton]
    omega

section Framing

variable {serde} (documented : serde.Documented) {env : RequestEnvelope}
  (valid : RequestEnvelope.form.Valid env)

include valid in
theorem fits_write : Fits NoFloat 127 env.write := RequestEnvelope.form.fits_above valid (by decide)

include documented valid

theorem requestText_oneLine : '\n' ∉ (requestText serde env).toList :=
  documented.oneLine (Serde.fits_of_noFloat (fits_write valid))

theorem trimEnd_requestText : trimEnd (requestText serde env) = requestText serde env := by
  obtain ⟨front, last⟩ := documented.brace (Serde.fits_of_noFloat (fits_write valid))
  exact dropEnd_of_last last (by decide)

theorem hear_of_trimEnd {text : String} (same : trimEnd text = requestText serde env) :
    hear serde text = .request env := by
  have read : RequestEnvelope.read env.write = some env := RequestEnvelope.form.back valid
  have parsed : serde.fromStr (requestText serde env) = some env.write := documented.compact (fits_write valid)
  rw [hear, same, parsed, Option.bind_some, read]

/-- A text that stops early is no request, unless only white space is missing. -/
theorem hear_beginning {text : String} (begins : text.toList <+: (requestText serde env).toList) :
    hear serde text = .request env ∨ ∃ error, hear serde text = .malformed error := by
  cases parsed : serde.fromStr (trimEnd text) with
  | none =>
    right
    refine ⟨serde.explain (trimEnd text), ?_⟩
    rw [hear, parsed]
    rfl
  | some v =>
    left
    have shorter := (trimEnd_begins text).trans begins
    have whole := documented.cutOff (v := env.write) trivial (Serde.fits_of_noFloat (fits_write valid)) shorter parsed
    exact hear_of_trimEnd documented valid whole

theorem hearLines_line (fuel : Nat) (rest : List UInt8) :
    hearLines serde (fuel + 1) (line (requestText serde env) ++ rest) =
      .request env :: hearLines serde fuel rest := by
  have isLine := isLine_line (requestText_oneLine documented valid)
  have nonempty : line (requestText serde env) ++ rest ≠ [] :=
    List.append_ne_nil_of_left_ne_nil isLine.ne_nil rest
  have text : hear serde (requestText serde env ++ "\n") = .request env := by
    apply hear_of_trimEnd documented valid
    rw [trimEnd_newline, trimEnd_requestText documented valid]
  rw [hearLines, if_neg nonempty, Lines.cut_append isLine, Option.getD_some]
  dsimp only
  rw [fromUtf8_line]
  dsimp only
  rw [text]

/-- A beginning of one line: nothing, the request, or a line that is none. -/
theorem hearLines_part {part : List UInt8} (begins : part <+: line (requestText serde env))
    {fuel : Nat} (enough : part.length ≤ fuel) :
    hearLines serde fuel part = [] ∨ hearLines serde fuel part = [.request env] ∨
      ∃ error, hearLines serde fuel part = [.malformed error] := by
  have isLine := isLine_line (requestText_oneLine documented valid)
  cases fuel with
  | zero => exact .inl rfl
  | succ fuel =>
    by_cases empty : part = []
    · left
      rw [hearLines, if_pos empty]
    · rcases Lines.cut_prefix isLine begins with rfl | ⟨uncut, -⟩
      · right
        left
        have one := hearLines_line documented valid fuel []
        rw [List.append_nil] at one
        rw [one]
        cases fuel <;> rfl
      · have last : hearLines serde (fuel + 1) part =
            match Text.fromUtf8 part with
            | none => []
            | some text => hear serde text :: hearLines serde fuel [] := by
          rw [hearLines, if_neg empty, uncut]
          rfl
        have done : hearLines serde fuel [] = [] := by cases fuel <;> rfl
        rw [last, done]
        cases decoded : Text.fromUtf8 part with
        | none => exact .inl rfl
        | some text =>
          right
          dsimp only
          rcases part_of_line begins decoded with rfl | short
          · rw [Lines.cut_line isLine] at uncut
            cases uncut
          · rcases hear_beginning documented valid short with request | ⟨error, malformed⟩
            · rw [request]
              exact .inl rfl
            · rw [malformed]
              exact .inr ⟨error, rfl⟩

omit valid in
theorem hearLines_written {envs : List RequestEnvelope}
    (valid : ∀ env ∈ envs, RequestEnvelope.form.Valid env) {fuel : Nat} (enough : envs.length ≤ fuel) :
    hearLines serde fuel (written serde envs) = envs.map .request := by
  induction envs generalizing fuel with
  | nil => cases fuel <;> rfl
  | cons env envs ih =>
    obtain ⟨first, rest⟩ := List.forall_mem_cons.mp valid
    obtain ⟨fuel, rfl⟩ := Nat.exists_eq_add_of_le' (Nat.le_of_add_left_le enough)
    have shorter : envs.length ≤ fuel := by
      rw [List.length_cons] at enough
      omega
    rw [written, List.flatMap_cons, hearLines_line documented first, ← written, ih rest shorter]
    rfl

omit valid in
theorem hearLines_beginning {envs : List RequestEnvelope}
    (valid : ∀ env ∈ envs, RequestEnvelope.form.Valid env) {part : List UInt8}
    (begins : part <+: written serde envs) {fuel : Nat} (enough : part.length ≤ fuel) :
    ∃ heard tail, heard <+: envs ∧ hearLines serde fuel part = heard.map .request ++ tail ∧
      (tail = [] ∨ ∃ error, tail = [.malformed error]) := by
  induction envs generalizing part fuel with
  | nil =>
    have empty : part = [] := List.prefix_nil.mp begins
    rw [empty]
    exact ⟨[], [], List.nil_prefix, by cases fuel <;> rfl, .inl rfl⟩
  | cons env envs ih =>
    obtain ⟨first, rest⟩ := List.forall_mem_cons.mp valid
    rw [written, List.flatMap_cons] at begins
    rcases List.prefix_or_prefix_of_prefix begins (List.prefix_append _ _) with inside | ⟨after, rfl⟩
    · rcases hearLines_part documented first inside enough with none | one | ⟨error, bad⟩
      · exact ⟨[], [], List.nil_prefix, none, .inl rfl⟩
      · exact ⟨[env], [], ⟨envs, rfl⟩, one, .inl rfl⟩
      · exact ⟨[], _, List.nil_prefix, bad, .inr ⟨error, rfl⟩⟩
    · rw [List.prefix_append_right_inj] at begins
      have long : 0 < (line (requestText serde env)).length :=
        List.length_pos_iff.mpr (isLine_line (requestText_oneLine documented first)).ne_nil
      obtain ⟨fuel, rfl⟩ := Nat.exists_eq_add_of_le' (Nat.le_trans long
        (Nat.le_trans (by rw [List.length_append]; omega) enough))
      have shorter : after.length ≤ fuel := by
        rw [List.length_append] at enough
        omega
      obtain ⟨heard, tail, ⟨others, whole⟩, after, last⟩ := ih rest begins shorter
      refine ⟨env :: heard, tail, ⟨others, by rw [List.cons_append, whole]⟩, ?_, last⟩
      rw [hearLines_line documented first, after]
      rfl

omit valid in
/-- The daemon hears what was written, and of a connection that breaks off the first requests and at
most a line that is no request. -/
theorem heard_written {envs : List RequestEnvelope}
    (valid : ∀ env ∈ envs, RequestEnvelope.form.Valid env) :
    heard serde (written serde envs) = envs.map .request ∧
      ∀ part, part <+: written serde envs → ∃ first tail, first <+: envs ∧
        heard serde part = first.map .request ++ tail ∧
          (tail = [] ∨ ∃ error, tail = [.malformed error]) := by
  exact ⟨hearLines_written documented valid (length_le_written serde envs),
    fun part begins => hearLines_beginning documented valid begins (Nat.le_refl _)⟩

end Framing

def twoRequests : List RequestEnvelope :=
  [⟨1, .dispatchExec "printf 'a\n\"b\"'"⟩, ⟨2, .snapshotDelete "täglich"⟩]

theorem twoRequests_valid : ∀ env ∈ twoRequests, RequestEnvelope.form.Valid env := by
  simp [twoRequests, RequestEnvelope.form, Form.u64, Request.Valid]

theorem heard_twoRequests : heard .plain (written .plain twoRequests) = twoRequests.map .request ∧
    ∀ part, part <+: written .plain twoRequests → ∃ first tail, first <+: twoRequests ∧
      heard .plain part = first.map .request ++ tail ∧
        (tail = [] ∨ ∃ error, tail = [.malformed error]) :=
  heard_written Serde.plain_documented twoRequests_valid

end Wire

end HyprPilot
