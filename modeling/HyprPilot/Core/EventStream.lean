import HyprPilot.Base.Lines
import HyprPilot.Base.Utf8
import HyprPilot.Core.Events
import HyprPilot.Core.Types
import Mathlib.Data.List.DropRight

/-!
# The event socket

The stream of the event socket is read by lines. A line that is not UTF-8 is an error of the read,
with the line off the stream; a line without `>>` is an event without data.
-/

namespace HyprPilot

/-! ### The reader -/

namespace EventStream

def isEnd (b : UInt8) : Bool := b == 10

/-- The last line may be without its end mark. -/
def readLine (s : List UInt8) : List UInt8 × List UInt8 := (Lines.cut isEnd s).getD (s, [])

def trimEnd (line : String) : String :=
  String.ofList (line.toList.rdropWhile fun c => c = '\n' ∨ c = '\r')

/-- The next event and what is left of the stream. -/
def next (s : List UInt8) : CoreResult (Option RawEvent) × List UInt8 :=
  if s = [] then (.ok none, [])
  else
    let (line, rest) := readLine s
    match Text.fromUtf8 line with
    | none => (.error (.io "stream did not contain valid UTF-8"), rest)
    | some line => (.ok (some (.ofLine (trimEnd line))), rest)

/-- The events of at most `turns` reads, each with the stream as it was before the read. -/
def received : Nat → List UInt8 → List (List UInt8 × Event)
  | 0, _ => []
  | turns + 1, s =>
    match next s with
    | (.ok (some raw), rest) => (s, .fromRaw raw) :: received turns rest
    | _ => []

/-- The event of a well-formed line: it is UTF-8 and has a `>>`. -/
def wellFormed (line : List UInt8) : Option RawEvent := do
  let text ← Text.fromUtf8 line
  let (name, data) ← Text.splitOnce ">>" (trimEnd text)
  return ⟨name, data⟩

end EventStream

/-- The bytes of the socket as lines with their end marks and an unended rest. -/
structure Stream where
  lines : List (List UInt8)
  tail : List UInt8
  whole : ∀ line ∈ lines, Lines.IsLine EventStream.isEnd line
  unended : ∀ b ∈ tail, EventStream.isEnd b = false

namespace Stream

def bytes (s : Stream) : List UInt8 := s.lines.flatten ++ s.tail

/-- The stream before the line at `i` is read. -/
def position (s : Stream) (i : Nat) : List UInt8 := (s.lines.drop i).flatten ++ s.tail

/-- Every well-formed line was handed on as its event, from its place in the stream. -/
def Heard (s : Stream) (handed : List (List UInt8 × Event)) : Prop :=
  ∀ i line raw, s.lines[i]? = some line → EventStream.wellFormed line = some raw →
    (s.position i, Event.fromRaw raw) ∈ handed

/-- No line that is not UTF-8 comes before a well-formed one. -/
def Clear (s : Stream) : Prop :=
  ∀ (i j : Nat) early later, i < j → s.lines[i]? = some early → s.lines[j]? = some later →
    (EventStream.wellFormed later).isSome → (Text.fromUtf8 early).isSome

/-- Every sequence of bytes is a stream. -/
theorem exists_stream (bytes : List UInt8) : ∃ s : Stream, s.bytes = bytes := by
  induction bytes with
  | nil => exact ⟨⟨[], [], by simp, by simp⟩, rfl⟩
  | cons b rest ih =>
    obtain ⟨s, rfl⟩ := ih
    obtain ⟨lines, tail, whole, unended⟩ := s
    cases ended : EventStream.isEnd b with
    | true =>
      have line : Lines.IsLine EventStream.isEnd [b] := ⟨[], b, rfl, ended, by simp⟩
      exact ⟨⟨[b] :: lines, tail, List.forall_mem_cons.mpr ⟨line, whole⟩, unended⟩, rfl⟩
    | false =>
      cases lines with
      | nil => exact ⟨⟨[], b :: tail, by simp, List.forall_mem_cons.mpr ⟨ended, unended⟩⟩, rfl⟩
      | cons line lines =>
        obtain ⟨⟨body, a, rfl, last, inner⟩, others⟩ := List.forall_mem_cons.mp whole
        have longer : Lines.IsLine EventStream.isEnd (b :: (body ++ [a])) :=
          ⟨b :: body, a, rfl, last, List.forall_mem_cons.mpr ⟨ended, inner⟩⟩
        exact ⟨⟨(b :: (body ++ [a])) :: lines, tail, List.forall_mem_cons.mpr ⟨longer, others⟩, unended⟩,
          rfl⟩

end Stream

/-! ### Reading a line -/

namespace EventStream

theorem readLine_append (s : List UInt8) : (readLine s).1 ++ (readLine s).2 = s := by
  unfold readLine
  cases taken : Lines.cut isEnd s with
  | none => simp
  | some cut => exact (Lines.append_of_cut taken).symm

theorem next_line {line : List UInt8} (isLine : Lines.IsLine isEnd line) (rest : List UInt8) :
    next (line ++ rest) =
      match Text.fromUtf8 line with
      | none => (.error (.io "stream did not contain valid UTF-8"), rest)
      | some line => (.ok (some (.ofLine (trimEnd line))), rest) := by
  have nonempty : line ++ rest ≠ [] := by simp [isLine.ne_nil]
  rw [next, if_neg nonempty, readLine, Lines.cut_append isLine]
  rfl

theorem length_next (s : List UInt8) : (next s).2.length ≤ s.length := by
  unfold next
  split
  · simp
  · have whole := congrArg List.length (readLine_append s)
    rw [List.length_append] at whole
    dsimp only
    split
    · dsimp only
      omega
    · dsimp only
      omega

theorem length_received {turns : Nat} {s u : List UInt8} {ev : Event}
    (member : (u, ev) ∈ received turns s) : u.length ≤ s.length := by
  induction turns generalizing s with
  | zero => cases member
  | succ turns ih =>
    have shorter := length_next s
    rw [received] at member
    split at member
    · rename_i raw rest read
      rw [read] at shorter
      rcases List.mem_cons.mp member with same | later
      · rw [(Prod.mk.inj same).1]
      · exact (ih later).trans shorter
    · cases member

theorem received_line {line : List UInt8} (isLine : Lines.IsLine isEnd line) (rest : List UInt8)
    (turns : Nat) : received (turns + 1) (line ++ rest) =
      match Text.fromUtf8 line with
      | none => []
      | some text => (line ++ rest, .fromRaw (.ofLine (trimEnd text))) :: received turns rest := by
  rw [received, next_line isLine]
  cases Text.fromUtf8 line <;> rfl

/-! ### Which lines are received -/

theorem mem_received_first {line : List UInt8} (isLine : Lines.IsLine isEnd line) (rest : List UInt8)
    (turns : Nat) (ev : Event) : (line ++ rest, ev) ∈ received (turns + 1) (line ++ rest) ↔
      ∃ text, Text.fromUtf8 line = some text ∧ ev = .fromRaw (.ofLine (trimEnd text)) := by
  have unread : (line ++ rest, ev) ∉ received turns rest := by
    intro member
    have shorter := length_received member
    have positive := List.length_pos_of_ne_nil isLine.ne_nil
    simp only [List.length_append] at shorter
    omega
  rw [received_line isLine]
  cases Text.fromUtf8 line with
  | none => simp
  | some text => simp [unread]

theorem mem_received_later {line : List UInt8} (isLine : Lines.IsLine isEnd line)
    {rest u : List UInt8} (shorter : u.length ≤ rest.length) (turns : Nat) (ev : Event) :
    (u, ev) ∈ received (turns + 1) (line ++ rest) ↔
      (Text.fromUtf8 line).isSome ∧ (u, ev) ∈ received turns rest := by
  have other : u ≠ line ++ rest := by
    rintro rfl
    have positive := List.length_pos_of_ne_nil isLine.ne_nil
    simp only [List.length_append] at shorter
    omega
  rw [received_line isLine]
  cases Text.fromUtf8 line with
  | none => simp
  | some text => simp [other]

theorem length_drop (lines : List (List UInt8)) (tail : List UInt8) (i : Nat) :
    ((lines.drop i).flatten ++ tail).length ≤ (lines.flatten ++ tail).length := by
  have parts : lines.flatten = (lines.take i).flatten ++ (lines.drop i).flatten := by
    rw [← List.flatten_append, List.take_append_drop]
  rw [parts]
  simp only [List.length_append]
  omega

/-- A line is received when it is UTF-8 and no line before it is not. -/
theorem mem_received {lines : List (List UInt8)} (whole : ∀ line ∈ lines, Lines.IsLine isEnd line)
    (tail : List UInt8) {turns i : Nat} (long : lines.length ≤ turns) {line : List UInt8}
    (located : lines[i]? = some line) (ev : Event) :
    ((lines.drop i).flatten ++ tail, ev) ∈ received turns (lines.flatten ++ tail) ↔
      (∀ j early, j < i → lines[j]? = some early → (Text.fromUtf8 early).isSome) ∧
        ∃ text, Text.fromUtf8 line = some text ∧ ev = .fromRaw (.ofLine (trimEnd text)) := by
  induction lines generalizing turns i with
  | nil => simp at located
  | cons first lines ih =>
    obtain ⟨isLine, others⟩ := List.forall_mem_cons.mp whole
    obtain ⟨turns, rfl⟩ : ∃ n, turns = n + 1 := ⟨turns - 1, by simp at long; omega⟩
    rw [List.flatten_cons, List.append_assoc]
    cases i with
    | zero =>
      obtain rfl := Option.some.inj located
      rw [List.drop_zero, List.flatten_cons, List.append_assoc, mem_received_first isLine]
      simp
    | succ i =>
      have below := ih others (by simpa using long) (located : lines[i]? = some line)
      rw [List.drop_succ_cons, mem_received_later isLine (length_drop lines tail i), below, ← and_assoc]
      refine and_congr_left fun _ => ⟨?_, ?_⟩
      · rintro ⟨valid, before⟩ j early less here
        cases j with
        | zero =>
          obtain rfl := Option.some.inj here
          exact valid
        | succ j => exact before j early (by omega) here
      · intro before
        exact ⟨before 0 first (Nat.succ_pos i) rfl, fun j early less here =>
          before (j + 1) early (by omega) here⟩

theorem wellFormed_text {line : List UInt8} {raw : RawEvent} (formed : wellFormed line = some raw) :
    ∃ text, Text.fromUtf8 line = some text ∧ raw = .ofLine (trimEnd text) := by
  obtain ⟨text, valid, split⟩ := Option.bind_eq_some_iff.mp formed
  obtain ⟨⟨name, data⟩, parts, equal⟩ := Option.bind_eq_some_iff.mp split
  refine ⟨text, valid, ?_⟩
  rw [RawEvent.ofLine, parts]
  exact (Option.some.inj equal).symm

/-- Enough reads hear every well-formed line exactly when no line that is not UTF-8 comes before one. -/
theorem heard_iff (s : Stream) {turns : Nat} (long : s.lines.length ≤ turns) :
    s.Heard (received turns s.bytes) ↔ s.Clear := by
  constructor
  · intro heard i j early later less here there formed
    obtain ⟨raw, formed⟩ := Option.isSome_iff_exists.mp formed
    have member := heard j later raw there formed
    exact ((mem_received s.whole s.tail long there _).mp member).1 i early less here
  · intro clear i line raw located formed
    obtain ⟨text, valid, rfl⟩ := wellFormed_text formed
    refine (mem_received s.whole s.tail long located _).mpr ⟨?_, text, valid, rfl⟩
    intro j early less here
    exact clear j i early line less here located (by rw [formed]; rfl)

end EventStream

end HyprPilot
