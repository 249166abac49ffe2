import Mathlib.Data.List.Basic
import Mathlib.Tactic.Common

/-!
# Words of a shell command line

The quoting rules of a POSIX shell as a machine over characters: a blank outside quotes ends a word,
a single quote opens or closes a literal part, and a backslash outside quotes takes the next
character literally. `quote` puts a text between single quotes.
-/

namespace Shell

def isBlank (c : Char) : Bool := c = ' ' || c = '\t'

/-- A character that stands for itself outside quotes. -/
def isPlain (c : Char) : Bool := !isBlank c && c ≠ '\'' && c ≠ '\\'

/-- How the next character is read. -/
inductive Mode where
  | unquoted | quoted | escaped
  deriving DecidableEq

namespace Mode

def next : Mode → Char → Mode
  | .unquoted, c => if c = '\'' then .quoted else if c = '\\' then .escaped else .unquoted
  | .quoted, c => if c = '\'' then .unquoted else .quoted
  | .escaped, _ => .unquoted

def after (mode : Mode) (cs : List Char) : Mode := cs.foldl next mode

end Mode

/-- The words that ended, and the one that is being read, if any. -/
structure State where
  mode : Mode
  ended : List (List Char)
  word : Option (List Char)
  deriving DecidableEq

namespace State

def start : State := ⟨.unquoted, [], none⟩

def add (s : State) (cs : List Char) : State := { s with word := some (s.word.getD [] ++ cs) }

def words (s : State) : List (List Char) := s.ended ++ s.word.toList

def close (s : State) : State := { s with ended := s.words, word := none }

def step (s : State) (c : Char) : State :=
  let next := { s with mode := s.mode.next c }
  match s.mode with
  | .unquoted => if isBlank c then next.close else if isPlain c then next.add [c] else next.add []
  | .quoted => if c = '\'' then next else next.add [c]
  | .escaped => next.add [c]

def run (s : State) (cs : List Char) : State := cs.foldl step s

end State

/-- The words of a command line, if no quotation or escape is left open. -/
def words (s : String) : Option (List String) :=
  let last := State.start.run s.toList
  if last.mode = .unquoted then some (last.words.map String.ofList) else none

/-- Each character with the mode in which it is read. -/
def readings : Mode → List Char → List (Mode × Char)
  | _, [] => []
  | mode, c :: cs => (mode, c) :: readings (mode.next c) cs

def quote (cs : List Char) : List Char :=
  ['\''] ++ (cs.flatMap fun c => if c = '\'' then ['\'', '\\', '\'', '\''] else [c]) ++ ['\'']

example : words "a 'b c' d\\'e ''" = some ["a", "b c", "d'e", ""] := by decide

namespace State

@[simp] theorem run_nil (s : State) : s.run [] = s := rfl

@[simp] theorem run_cons (s : State) (c : Char) (cs : List Char) :
    s.run (c :: cs) = (s.step c).run cs := rfl

theorem run_append (s : State) (first second : List Char) :
    s.run (first ++ second) = (s.run first).run second := List.foldl_append

@[simp] theorem add_add (s : State) (first second : List Char) :
    (s.add first).add second = s.add (first ++ second) := by
  simp [add]

theorem step_plain {s : State} {c : Char} (outside : s.mode = .unquoted) (plain : isPlain c = true) :
    s.step c = s.add [c] := by
  have clear : isBlank c = false ∧ c ≠ '\'' ∧ c ≠ '\\' := by simpa [isPlain, and_assoc] using plain
  simp [step, outside, clear, plain, Mode.next, add]

/-- Plain characters outside quotes are added to the word. -/
theorem run_plain {s : State} (outside : s.mode = .unquoted) {cs : List Char} (some : cs ≠ [])
    (plain : cs.all isPlain = true) : s.run cs = s.add cs := by
  induction cs generalizing s with
  | nil => exact absurd rfl some
  | cons c cs ih =>
    rw [List.all_cons, Bool.and_eq_true] at plain
    rw [run_cons, step_plain outside plain.1]
    cases cs with
    | nil => rfl
    | cons d ds =>
      rw [ih (s := s.add [c]) outside (by simp) plain.2, add_add, List.singleton_append]

theorem add_nil {s : State} (begun : s.word.isSome = true) : s.add [] = s := by
  obtain ⟨mode, ended, word⟩ := s
  obtain ⟨w, rfl⟩ := Option.isSome_iff_exists.mp begun
  simp [add]

/-- Between quotes each character adds itself, a quote through its escape. -/
theorem run_body {s : State} (inside : s.mode = .quoted) (begun : s.word.isSome = true)
    (cs : List Char) :
    s.run (cs.flatMap fun c => if c = '\'' then ['\'', '\\', '\'', '\''] else [c]) = s.add cs := by
  induction cs generalizing s with
  | nil => exact (add_nil begun).symm
  | cons c cs ih =>
    have first : s.run (if c = '\'' then ['\'', '\\', '\'', '\''] else [c]) = s.add [c] := by
      by_cases same : c = '\''
      · simp [same, step, inside, Mode.next, isBlank, isPlain, add]
      · simp [same, step, inside, Mode.next, add]
    rw [List.flatMap_cons, run_append, first, ih (s := s.add [c]) inside rfl, add_add,
      List.singleton_append]

/-- A quoted text is read as the text, outside quotes before and after. -/
theorem run_quote {s : State} (outside : s.mode = .unquoted) (cs : List Char) :
    s.run (quote cs) = s.add cs := by
  have opened : s.step '\'' = { s.add [] with mode := .quoted } := by
    simp [step, outside, Mode.next, isBlank, isPlain, add]
  unfold quote
  rw [List.append_assoc, List.singleton_append, run_cons, opened, run_append, run_body rfl rfl]
  simp [step, Mode.next, add, outside]

theorem run_blank {s : State} (outside : s.mode = .unquoted) : s.run [' '] = s.close := by
  simp [step, outside, Mode.next, isBlank, close, words]

theorem step_mode (s : State) (c : Char) : (s.step c).mode = s.mode.next c := by
  unfold step
  split
  · split
    · rfl
    · split <;> rfl
  · split <;> rfl
  · rfl

theorem run_mode (s : State) (cs : List Char) : (s.run cs).mode = s.mode.after cs := by
  induction cs generalizing s with
  | nil => rfl
  | cons c cs ih =>
    rw [run_cons, ih, step_mode]
    rfl

end State

/-! ### Command lines of quoted and plain words -/

/-- A text that is read as the word: the word between quotes, or a plain word as it is. -/
def Renders (text word : List Char) : Prop :=
  text = quote word ∨ (text = word ∧ word ≠ [] ∧ word.all isPlain = true)

theorem Renders.run {text word : List Char} (renders : Renders text word) {s : State}
    (outside : s.mode = .unquoted) : s.run text = s.add word := by
  rcases renders with rfl | ⟨rfl, some, plain⟩
  · exact State.run_quote outside word
  · exact State.run_plain outside some plain

theorem Renders.after {text word : List Char} (renders : Renders text word) :
    Mode.unquoted.after text = .unquoted := by
  have read := renders.run (s := State.start) rfl
  have mode := State.run_mode State.start text
  rw [read] at mode
  exact mode.symm

theorem intercalate_cons {sep text : List Char} {texts : List (List Char)} (more : texts ≠ []) :
    sep.intercalate (text :: texts) = text ++ sep ++ sep.intercalate texts := by
  obtain ⟨next, rest, rfl⟩ := List.exists_cons_of_ne_nil more
  simp [List.intercalate]

theorem State.run_intercalate {s : State} (outside : s.mode = .unquoted) (fresh : s.word = none)
    {texts words : List (List Char)} (render : List.Forall₂ Renders texts words) :
    (s.run ([' '].intercalate texts)).words = s.ended ++ words := by
  induction render generalizing s with
  | nil => simp [List.intercalate, State.words, fresh]
  | @cons text word texts words first rest ih =>
    cases rest with
    | nil =>
      have only : [' '].intercalate [text] = text := by simp [List.intercalate]
      rw [only, first.run outside]
      simp [State.words, add, fresh]
    | cons second later =>
      rw [intercalate_cons (by simp), List.append_assoc, State.run_append, first.run outside,
        State.run_append, run_blank (s := s.add word) outside,
        ih (s := (s.add word).close) outside rfl]
      simp [close, State.words, add, fresh]

theorem after_intercalate {texts words : List (List Char)}
    (render : List.Forall₂ Renders texts words) :
    Mode.unquoted.after ([' '].intercalate texts) = .unquoted := by
  induction render with
  | nil => rfl
  | @cons text word texts words first rest ih =>
    cases rest with
    | nil => simpa [List.intercalate] using first.after
    | cons second later =>
      rw [intercalate_cons (by simp)]
      unfold Mode.after at *
      rw [List.foldl_append, List.foldl_append, show List.foldl _ _ text = _ from first.after]
      exact ih

/-- A command line of rendered words, with one blank between two of them, is read as the words. -/
theorem words_of_renders {s : String} {texts : List (List Char)} {ws : List String}
    (line : s.toList = [' '].intercalate texts)
    (render : List.Forall₂ Renders texts (ws.map String.toList)) : words s = some ws := by
  have mode : (State.start.run s.toList).mode = .unquoted := by
    rw [State.run_mode, line]
    exact after_intercalate render
  have read := State.run_intercalate (s := State.start) rfl rfl render
  have same : String.ofList ∘ String.toList = id := by
    funext w
    exact String.ofList_toList
  rw [words, if_pos mode, line, read]
  simp [State.start, same]

/-! ### What stands outside quotes -/

/-- Outside quotes a character is a blank, a safe one, or it begins a quotation or an escaped
quote. -/
def Contained (safe : Char → Bool) : Mode × Char → Prop
  | (.unquoted, c) => isBlank c = true ∨ c = '\'' ∨ c = '\\' ∨ safe c = true
  | (.quoted, _) => True
  | (.escaped, c) => c = '\''

def Guarded (safe : Char → Bool) (mode : Mode) (cs : List Char) : Prop :=
  ∀ reading ∈ readings mode cs, Contained safe reading

theorem readings_append (mode : Mode) (first second : List Char) :
    readings mode (first ++ second) = readings mode first ++ readings (mode.after first) second := by
  induction first generalizing mode with
  | nil => rfl
  | cons c cs ih =>
    rw [List.cons_append, readings, ih]
    rfl

theorem Guarded.append {safe : Char → Bool} {mode : Mode} {first second : List Char}
    (left : Guarded safe mode first) (right : Guarded safe (mode.after first) second) :
    Guarded safe mode (first ++ second) := by
  intro reading member
  rw [readings_append, List.mem_append] at member
  rcases member with member | member
  · exact left reading member
  · exact right reading member

theorem guarded_body (safe : Char → Bool) (cs : List Char) :
    Guarded safe .quoted
      ((cs.flatMap fun c => if c = '\'' then ['\'', '\\', '\'', '\''] else [c]) ++ ['\'']) := by
  induction cs with
  | nil => simp [Guarded, readings, Contained]
  | cons c cs ih =>
    rw [List.flatMap_cons, List.append_assoc]
    by_cases same : c = '\''
    · rw [if_pos same]
      exact Guarded.append (by simp [Guarded, readings, Contained, Mode.next]) ih
    · rw [if_neg same]
      refine Guarded.append (by simp [Guarded, readings, Contained]) ?_
      simpa [Mode.after, Mode.next, same] using ih

theorem guarded_quote (safe : Char → Bool) (cs : List Char) : Guarded safe .unquoted (quote cs) := by
  unfold quote
  rw [List.append_assoc]
  exact Guarded.append (by simp [Guarded, readings, Contained]) (guarded_body safe cs)

theorem guarded_plain {safe : Char → Bool} {cs : List Char} (plain : cs.all isPlain = true)
    (clean : cs.all safe = true) : Guarded safe .unquoted cs := by
  induction cs with
  | nil => simp [Guarded, readings]
  | cons c cs ih =>
    rw [List.all_cons, Bool.and_eq_true] at plain clean
    have here : Guarded safe .unquoted [c] := by simp [Guarded, readings, Contained, clean.1]
    have next : Mode.unquoted.after [c] = .unquoted := by
      have clear : isBlank c = false ∧ c ≠ '\'' ∧ c ≠ '\\' := by
        simpa [isPlain, and_assoc] using plain.1
      simp [Mode.after, Mode.next, clear]
    apply here.append
    rw [next]
    exact ih plain.2 clean.2

theorem guarded_intercalate {safe : Char → Bool} {texts words : List (List Char)}
    (render : List.Forall₂ Renders texts words)
    (guarded : ∀ text ∈ texts, Guarded safe .unquoted text) :
    Guarded safe .unquoted ([' '].intercalate texts) := by
  induction render with
  | nil => simp [Guarded, List.intercalate, readings]
  | @cons text word texts words first rest ih =>
    obtain ⟨here, later⟩ := List.forall_mem_cons.mp guarded
    cases rest with
    | nil => simpa [List.intercalate] using here
    | cons second more =>
      rw [intercalate_cons (by simp), List.append_assoc]
      apply here.append
      rw [first.after]
      exact Guarded.append (by simp [Guarded, readings, Contained, isBlank]) (ih later)

end Shell
