import HyprPilot.Wire.JsonText
import Mathlib.Data.List.DropRight

/-!
# JSON values as texts

Writing and reading whole values. A container is read by a loop over its items, with the reader of
the values one level below; the level is bounded, and no deeper text is read.
-/

namespace HyprPilot
namespace JsonText

/-! ### Writing -/

/-- The white space after a colon, before an item of a container, and before the end of one that is
not empty. -/
structure Layout where
  colon : List Char
  item : Nat → List Char
  close : Nat → List Char

def compact : Layout := ⟨[], fun _ => [], fun _ => []⟩

def indented : Layout where
  colon := [' ']
  item level := '\n' :: List.replicate (2 * (level + 1)) ' '
  close level := '\n' :: List.replicate (2 * level) ' '

variable (layout : Layout)

mutual

def render (level : Nat) : Json → List Char
  | .null => ['n', 'u', 'l', 'l']
  | .bool true => ['t', 'r', 'u', 'e']
  | .bool false => ['f', 'a', 'l', 's', 'e']
  | .int n => (toString n).toList
  | .float text => text.toList
  | .str s => quote s
  | .arr items => '[' :: renderItems level true items
  | .obj fields => '{' :: renderFields level true fields

/-- The items from here on and the end of the array. -/
def renderItems (level : Nat) (first : Bool) : List Json → List Char
  | [] => (if first then [] else layout.close level) ++ [']']
  | item :: rest =>
    (if first then [] else [',']) ++ (layout.item level ++ (render (level + 1) item ++
      renderItems level false rest))

def renderFields (level : Nat) (first : Bool) : List (String × Json) → List Char
  | [] => (if first then [] else layout.close level) ++ ['}']
  | (key, value) :: rest =>
    (if first then [] else [',']) ++ (layout.item level ++ (quote key ++ (':' :: (layout.colon ++
      (render (level + 1) value ++ renderFields level false rest)))))

end

def print (layout : Layout) (value : Json) : String := String.ofList (render layout 0 value)

/-! ### Reading -/

section Read

variable {α : Type} (item : Reader α) (close : Char)

/-- The rest of a container after an item. -/
def more : Nat → Reader (List α)
  | 0, _ => none
  | fuel + 1, cs =>
    match skip cs with
    | [] => none
    | c :: rest =>
      if c = close then some ([], rest)
      else if c = ',' then
        match item rest with
        | none => none
        | some (a, rest) => (more fuel rest).map fun (items, rest) => (a :: items, rest)
      else none

def container (cs : List Char) : Option (List α × List Char) :=
  match skip cs with
  | [] => none
  | c :: rest =>
    if c = close then some ([], rest)
    else
      match item (c :: rest) with
      | none => none
      | some (a, rest) => (more item close (rest.length + 1) rest).map fun (items, rest) => (a :: items, rest)

def afterColon : Reader α
  | ':' :: rest => item rest
  | _ => none

def member (cs : List Char) : Option ((String × α) × List Char) :=
  match skip cs with
  | '"' :: rest =>
    (stringBody rest).bind fun (key, rest) =>
      (afterColon item (skip rest)).map fun (a, rest) => ((key, a), rest)
  | _ => none

end Read

def scalar : Reader Json
  | 'n' :: rest => word ['u', 'l', 'l'] .null rest
  | 't' :: rest => word ['r', 'u', 'e'] (.bool true) rest
  | 'f' :: rest => word ['a', 'l', 's', 'e'] (.bool false) rest
  | '"' :: rest => (stringBody rest).map fun (s, rest) => (.str s, rest)
  | cs => number cs

def value : Nat → Reader Json
  | 0, cs => scalar (skip cs)
  | depth + 1, cs =>
    match skip cs with
    | '[' :: rest => (container (value depth) ']' rest).map fun (items, rest) => (.arr items, rest)
    | '{' :: rest =>
      (container (member (value depth)) '}' rest).map fun (fields, rest) => (.obj fields, rest)
    | cs => scalar cs

/-- A value of at most 127 levels and nothing after it but white space. -/
def parse (text : String) : Option Json :=
  match value 127 text.toList with
  | some (v, rest) => if skip rest = [] then some v else none
  | none => none

/-! ### Values that are read back -/

def IsFloat (text : String) : Prop :=
  numberOf text.toList = some (.float text) ∧ ∀ c ∈ text.toList, isNumberChar c = true

/-- Values of a number of levels: integers that 64 bits hold and no key twice. -/
inductive Fits (floats : String → Prop) : Nat → Json → Prop where
  | null {depth} : Fits floats depth .null
  | bool {depth} (b : Bool) : Fits floats depth (.bool b)
  | int {depth n} : InRange n → Fits floats depth (.int n)
  | float {depth text} : floats text → Fits floats depth (.float text)
  | str {depth} (s : String) : Fits floats depth (.str s)
  | arr {depth items} : (∀ v ∈ items, Fits floats depth v) → Fits floats (depth + 1) (.arr items)
  | obj {depth fields} : (fields.map Prod.fst).Nodup → (∀ f ∈ fields, Fits floats depth f.2) →
    Fits floats (depth + 1) (.obj fields)

theorem Fits.mono {floats : String → Prop} {depth deeper : Nat} {v : Json} (fits : Fits floats depth v)
    (le : depth ≤ deeper) : Fits floats deeper v := by
  induction fits generalizing deeper with
  | null => exact .null
  | bool b => exact .bool b
  | int range => exact .int range
  | float text => exact .float text
  | str s => exact .str s
  | arr _ ih =>
    obtain ⟨below, rfl⟩ := Nat.exists_eq_add_of_le' (Nat.le_of_add_left_le le)
    exact .arr fun v inside => ih v inside (by omega)
  | obj distinct _ ih =>
    obtain ⟨below, rfl⟩ := Nat.exists_eq_add_of_le' (Nat.le_of_add_left_le le)
    exact .obj distinct fun f inside => ih f inside (by omega)

/-- A layout adds nothing but white space. -/
structure Layout.White : Prop where
  colon : ∀ c ∈ layout.colon, isSpace c = true
  item : ∀ level, ∀ c ∈ layout.item level, isSpace c = true
  close : ∀ level, ∀ c ∈ layout.close level, isSpace c = true

theorem compact_white : compact.White := by
  constructor <;> simp [compact]

theorem indented_white : indented.White := by
  constructor <;> simp [indented, List.mem_replicate, isSpace]

theorem isNumberChar_of_isSpace {c : Char} (space : isSpace c = true) : isNumberChar c = false := by
  simp only [isSpace, Bool.or_eq_true, beq_iff_eq] at space
  rcases space with ((rfl | rfl) | rfl) | rfl <;> rfl

theorem ends_append {blank cs : List Char} (white : ∀ c ∈ blank, isSpace c = true) (ends : Ends cs) :
    Ends (blank ++ cs) := by
  cases blank with
  | nil => exact ends
  | cons c blank => exact ends_cons (isNumberChar_of_isSpace (white c List.mem_cons_self)) _

/-! ### Containers -/

section Containers

variable {α : Type} {item : Reader α} {close : Char} {blank last : List Char} {write : α → List Char}

/-- What is written for the items after the first one. -/
def writeMore (blank last : List Char) (write : α → List Char) : List α → List Char
  | [] => last
  | a :: rest => ',' :: (blank ++ (write a ++ writeMore blank last write rest))

theorem length_le_writeMore (blank last : List Char) (write : α → List Char) (items : List α) :
    items.length ≤ (writeMore blank last write items).length := by
  induction items with
  | nil => simp
  | cons a rest ih =>
    simp only [writeMore, List.length_cons, List.length_append]
    omega

/-- Each item is read from what is written for it. -/
def ReadsBack (item : Reader α) (blank : List Char) (write : α → List Char) (items : List α) : Prop :=
  ∀ a ∈ items, ∀ rest, Ends rest → item (blank ++ (write a ++ rest)) = some (a, rest)

section Brackets

variable {before : List Char} (white : ∀ c ∈ before, isSpace c = true) (visible : isSpace close = false)
  (comma : close ≠ ',') (bracket : isNumberChar close = false)

include white bracket in
theorem ends_writeMore (items : List α) (rest : List Char) :
    Ends (writeMore blank (before ++ [close]) write items ++ rest) := by
  cases items with
  | nil =>
    rw [writeMore, List.append_assoc]
    exact ends_append white (ends_cons bracket rest)
  | cons a items => exact ends_cons rfl _

include white visible comma bracket in
theorem more_writeMore {items : List α} (back : ReadsBack item blank write items) (rest : List Char)
    {fuel : Nat} (enough : items.length < fuel) :
    more item close fuel (writeMore blank (before ++ [close]) write items ++ rest) =
      some (items, rest) := by
  induction items generalizing fuel with
  | nil =>
    obtain ⟨fuel, rfl⟩ := Nat.exists_eq_succ_of_ne_zero (Nat.ne_of_gt enough)
    rw [writeMore, List.append_assoc, more, skip_append white, List.singleton_append, skip_cons visible]
    dsimp only
    rw [if_pos rfl]
  | cons a items ih =>
    obtain ⟨fuel, rfl⟩ := Nat.exists_eq_succ_of_ne_zero (Nat.ne_of_gt (Nat.zero_lt_of_lt enough))
    have shorter : items.length < fuel := by simpa using enough
    have below := ih (fun b inside => back b (List.mem_cons_of_mem _ inside)) shorter
    have first := back a List.mem_cons_self
      (writeMore blank (before ++ [close]) write items ++ rest) (ends_writeMore white bracket items rest)
    rw [writeMore, List.cons_append, more, skip_cons rfl]
    dsimp only
    rw [if_neg comma.symm, if_pos rfl, List.append_assoc, List.append_assoc, first]
    dsimp only
    rw [below]
    rfl

/-- What a reader makes of a text does not depend on the white space before it, and neither an end
nor a closing bracket is an item. -/
structure Item (item : Reader α) (close : Char) : Prop where
  skip : ∀ cs, item (skip cs) = item cs
  nil : item [] = none
  close : ∀ rest, item (close :: rest) = none

def writeAll (blank before : List Char) (close : Char) (write : α → List Char) : List α → List Char
  | [] => [close]
  | a :: items => blank ++ (write a ++ writeMore blank (before ++ [close]) write items)

include white visible comma bracket in
theorem container_writeAll (reader : Item item close) {items : List α}
    (back : ReadsBack item blank write items) (rest : List Char) :
    container item close (writeAll blank before close write items ++ rest) = some (items, rest) := by
  cases items with
  | nil =>
    rw [writeAll, List.singleton_append, container, skip_cons visible]
    dsimp only
    rw [if_pos rfl]
  | cons a items =>
    have first := back a List.mem_cons_self
      (writeMore blank (before ++ [close]) write items ++ rest) (ends_writeMore white bracket items rest)
    have enough : items.length < (writeMore blank (before ++ [close]) write items ++ rest).length + 1 := by
      have := length_le_writeMore blank (before ++ [close]) write items
      rw [List.length_append]
      omega
    have after := more_writeMore white visible comma bracket
      (fun b inside => back b (List.mem_cons_of_mem _ inside)) rest enough
    rw [writeAll, List.append_assoc, List.append_assoc, container]
    rw [← reader.skip] at first
    cases start : skip (blank ++ (write a ++ (writeMore blank (before ++ [close]) write items ++ rest))) with
    | nil =>
      rw [start, reader.nil] at first
      cases first
    | cons c cs =>
      rw [start] at first
      have other : c ≠ close := by
        rintro rfl
        rw [reader.close] at first
        cases first
      dsimp only
      rw [if_neg other, first]
      dsimp only
      rw [after]
      rfl

end Brackets

end Containers

/-! ### Values -/

theorem skip_skip (cs : List Char) : skip (skip cs) = skip cs := List.dropWhile_idempotent isSpace cs

theorem value_skip (depth : Nat) (cs : List Char) : value depth (skip cs) = value depth cs := by
  cases depth <;> simp only [value, skip_skip]

def wordMarks : List Char := ['n', 't', 'f', '"']

theorem scalar_eq_number {c : Char} (other : c ∉ wordMarks) (cs : List Char) :
    scalar (c :: cs) = number (c :: cs) := by
  simp only [wordMarks, List.mem_cons, List.not_mem_nil, or_false, not_or] at other
  obtain ⟨n, t, f, quote⟩ := other
  rw [scalar.eq_def]
  split <;> simp_all

theorem number_of_other {c : Char} (plain : isNumberChar c = false) (cs : List Char) :
    number (c :: cs) = none := by
  have empty : numberOf [] = none := rfl
  simp [number, plain, empty]

theorem scalar_number {lexeme rest : List Char} {n : Json} (read : numberOf lexeme = some n)
    (all : ∀ c ∈ lexeme, isNumberChar c = true) (ends : Ends rest) :
    scalar (lexeme ++ rest) = some (n, rest) := by
  cases lexeme with
  | nil => cases read
  | cons c lexeme =>
    have other : c ∉ wordMarks := by
      intro mark
      have marks : wordMarks.all (fun d => !isNumberChar d) = true := rfl
      have plain := List.all_eq_true.mp marks c mark
      simp [all c List.mem_cons_self] at plain
    have whole := number_append read all ends
    rw [List.cons_append] at whole ⊢
    rw [scalar_eq_number other, whole]

theorem value_item (depth : Nat) : Item (value depth) ']' where
  skip := value_skip depth
  nil := by cases depth <;> rfl
  close rest := by
    have nothing : scalar (']' :: rest) = none := by
      rw [scalar_eq_number (by decide), number_of_other rfl]
    cases depth <;> rw [value, skip_cons rfl] <;> exact nothing

theorem member_quote {α : Type} (item : Reader α) (cs : List Char) : member item ('"' :: cs) =
    (stringBody cs).bind fun (key, rest) =>
      (afterColon item (skip rest)).map fun (a, rest) => ((key, a), rest) := rfl

theorem member_item {α : Type} (value : Reader α) : Item (member value) '}' where
  skip cs := by simp only [member, skip_skip]
  nil := rfl
  close _ := rfl

theorem renderItems_false (level : Nat) (items : List Json) :
    renderItems layout level false items =
      writeMore (layout.item level) (layout.close level ++ [']']) (render layout (level + 1)) items := by
  induction items with
  | nil => rfl
  | cons item rest ih => simp [renderItems, writeMore, ih]

theorem renderItems_true (level : Nat) (items : List Json) :
    renderItems layout level true items =
      writeAll (layout.item level) (layout.close level) ']' (render layout (level + 1)) items := by
  cases items with
  | nil => rfl
  | cons item rest => simp [renderItems, writeAll, renderItems_false]

def renderField (level : Nat) (field : String × Json) : List Char :=
  quote field.1 ++ (':' :: (layout.colon ++ render layout level field.2))

theorem renderFields_false (level : Nat) (fields : List (String × Json)) :
    renderFields layout level false fields =
      writeMore (layout.item level) (layout.close level ++ ['}']) (renderField layout (level + 1)) fields := by
  induction fields with
  | nil => rfl
  | cons field rest ih => simp [renderFields, writeMore, renderField, ih]

theorem renderFields_true (level : Nat) (fields : List (String × Json)) :
    renderFields layout level true fields =
      writeAll (layout.item level) (layout.close level) '}' (renderField layout (level + 1)) fields := by
  cases fields with
  | nil => rfl
  | cons field rest => simp [renderFields, writeAll, renderField, renderFields_false]

theorem member_renderField {reader : Reader Json} {blank rest : List Char}
    (space : ∀ c ∈ blank, isSpace c = true) {level : Nat} {field : String × Json}
    (back : reader (layout.colon ++ (render layout level field.2 ++ rest)) = some (field.2, rest)) :
    member reader (blank ++ (renderField layout level field ++ rest)) = some (field, rest) := by
  have shape : renderField layout level field ++ rest =
      '"' :: (field.1.toList.flatMap escape ++ '"' :: ':' :: (layout.colon ++
        (render layout level field.2 ++ rest))) := by
    simp [renderField, quote]
  rw [← (member_item reader).skip, skip_append space, shape, skip_cons rfl, member_quote,
    stringBody_quote, Option.bind_some]
  dsimp only
  rw [skip_cons rfl, afterColon, back]
  rfl

theorem value_array (depth : Nat) (cs : List Char) : value (depth + 1) ('[' :: cs) =
    (container (value depth) ']' cs).map fun (items, rest) => (.arr items, rest) := by
  rw [value, skip_cons rfl]
  rfl

theorem value_object (depth : Nat) (cs : List Char) : value (depth + 1) ('{' :: cs) =
    (container (member (value depth)) '}' cs).map fun (fields, rest) => (.obj fields, rest) := by
  rw [value, skip_cons rfl]
  rfl

theorem value_of_scalar {c : Char} (square : c ≠ '[') (curly : c ≠ '{') (visible : isSpace c = false)
    (depth : Nat) (cs : List Char) : value depth (c :: cs) = scalar (c :: cs) := by
  cases depth with
  | zero => rw [value, skip_cons visible]
  | succ depth =>
    rw [value.eq_def]
    dsimp only
    rw [skip_cons visible]
    split <;> simp_all

theorem value_number {lexeme rest : List Char} {n : Json} (read : numberOf lexeme = some n)
    (all : ∀ c ∈ lexeme, isNumberChar c = true) (ends : Ends rest) (depth : Nat) :
    value depth (lexeme ++ rest) = some (n, rest) := by
  have whole := scalar_number read all ends
  cases lexeme with
  | nil => cases read
  | cons c lexeme =>
    have first := all c List.mem_cons_self
    have visible : isSpace c = false := by
      by_contra space
      rw [isNumberChar_of_isSpace (by simpa using space)] at first
      cases first
    rw [List.cons_append] at whole ⊢
    rw [value_of_scalar _ _ visible, whole]
    · rintro rfl
      cases first
    · rintro rfl
      cases first

/-- Every value is read back from its text. -/
theorem value_render {layout : Layout} (white : layout.White) {depth : Nat} {v : Json}
    (fits : Fits IsFloat depth v) (level : Nat) {rest : List Char} (ends : Ends rest) :
    value depth (render layout level v ++ rest) = some (v, rest) := by
  induction fits generalizing level rest with
  | null =>
    rw [render, List.cons_append, value_of_scalar (by decide) (by decide) rfl]
    exact word_append ['u', 'l', 'l'] _ _
  | bool b =>
    cases b with
    | false =>
      rw [render, List.cons_append, value_of_scalar (by decide) (by decide) rfl]
      exact word_append ['a', 'l', 's', 'e'] _ _
    | true =>
      rw [render, List.cons_append, value_of_scalar (by decide) (by decide) rfl]
      exact word_append ['r', 'u', 'e'] _ _
  | int range =>
    rw [render]
    exact value_number (numberOf_toString range) (isNumberChar_toString _) ends _
  | float text =>
    rw [render]
    exact value_number text.1 text.2 ends _
  | str s =>
    rw [render, quote, List.cons_append, value_of_scalar (by decide) (by decide) rfl, scalar]
    rw [List.append_assoc, List.singleton_append, stringBody_quote]
    rfl
  | @arr depth items _ ih =>
    have back : ReadsBack (value depth) (layout.item level) (render layout (level + 1)) items := by
      intro v inside rest ends
      rw [← value_skip, skip_append (white.item level), value_skip]
      exact ih v inside (level + 1) ends
    have whole := container_writeAll (white.close level) rfl (by decide) rfl (value_item depth) back rest
    rw [render, renderItems_true, List.cons_append, value_array, whole]
    rfl
  | @obj depth fields _ _ ih =>
    have back : ReadsBack (member (value depth)) (layout.item level) (renderField layout (level + 1))
        fields := by
      intro field inside rest ends
      apply member_renderField layout (white.item level)
      rw [← value_skip, skip_append white.colon, value_skip]
      exact ih field inside (level + 1) ends
    have whole := container_writeAll (white.close level) rfl (by decide) rfl (member_item (value depth))
      back rest
    rw [render, renderFields_true, List.cons_append, value_object, whole]
    rfl

theorem parse_print {layout : Layout} (white : layout.White) {v : Json} (fits : Fits IsFloat 127 v) :
    parse (print layout v) = some v := by
  have whole := value_render white fits 0 ends_nil
  rw [List.append_nil] at whole
  rw [parse, print, String.toList_ofList, whole]
  rfl

end JsonText
end HyprPilot
