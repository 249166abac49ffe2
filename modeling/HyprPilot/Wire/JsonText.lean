import HyprPilot.Base.Decimal
import HyprPilot.Mcp.Json

/-!
# JSON texts

The text of a JSON value in a layout, compact or indented, and the reading of a text. Each part of a
value is read back from what was written for it, whatever comes after.
-/

namespace HyprPilot
namespace JsonText

abbrev Reader (α : Type) := List Char → Option (α × List Char)

/-! ### White space and words -/

def isSpace (c : Char) : Bool := c == ' ' || c == '\n' || c == '\t' || c == '\r'

def skip (cs : List Char) : List Char := cs.dropWhile isSpace

theorem skip_append {blank : List Char} (white : ∀ c ∈ blank, isSpace c = true) (cs : List Char) :
    skip (blank ++ cs) = skip cs := by
  induction blank with
  | nil => rfl
  | cons c blank ih =>
    obtain ⟨first, rest⟩ := List.forall_mem_cons.mp white
    rw [List.cons_append, skip, List.dropWhile_cons_of_pos first]
    exact ih rest

theorem skip_cons {c : Char} (visible : isSpace c = false) (cs : List Char) : skip (c :: cs) = c :: cs := by
  simp [skip, visible]

def word {α : Type} (text : List Char) (a : α) (cs : List Char) : Option (α × List Char) :=
  (text.isPrefixOf? cs).map fun rest => (a, rest)

theorem isPrefixOf?_append (text cs : List Char) : text.isPrefixOf? (text ++ cs) = some cs := by
  induction text with
  | nil => rfl
  | cons c text ih => simp [List.isPrefixOf?, ih]

theorem word_append {α : Type} (text : List Char) (a : α) (cs : List Char) :
    word text a (text ++ cs) = some (a, cs) := by
  rw [word, isPrefixOf?_append]
  rfl

/-! ### Strings -/

def hexDigit (n : Nat) : Char := if n < 10 then Char.ofNat (48 + n) else Char.ofNat (87 + n)

/-- The characters with an escape of their own, and its letter. -/
def letters : List (Char × Char) :=
  [('"', '"'), ('\\', '\\'), ('\x08', 'b'), ('\t', 't'), ('\n', 'n'), ('\x0c', 'f'), ('\r', 'r')]

def escape (c : Char) : List Char :=
  match letters.lookup c with
  | some letter => ['\\', letter]
  | none =>
    if c.toNat < 32 then ['\\', 'u', '0', '0', hexDigit (c.toNat / 16), hexDigit (c.toNat % 16)]
    else [c]

def quote (s : String) : List Char := '"' :: (s.toList.flatMap escape ++ ['"'])

def hexValue (c : Char) : Option Nat :=
  if '0' ≤ c ∧ c ≤ '9' then some (c.toNat - 48)
  else if 'a' ≤ c ∧ c ≤ 'f' then some (c.toNat - 87)
  else if 'A' ≤ c ∧ c ≤ 'F' then some (c.toNat - 55)
  else none

def hex4 : Reader Nat
  | a :: b :: c :: d :: rest =>
    match hexValue a, hexValue b, hexValue c, hexValue d with
    | some a, some b, some c, some d => some (((a * 16 + b) * 16 + c) * 16 + d, rest)
    | _, _, _, _ => none
  | _ => none

def surrogates (high low : Nat) : Char := Char.ofNat (0x10000 + (high - 0xD800) * 0x400 + (low - 0xDC00))

/-- The second half of a surrogate pair, in an escape of its own. -/
def lowHalf (high : Nat) : Reader Char
  | '\\' :: 'u' :: cs =>
    (hex4 cs).bind fun (low, rest) =>
      if 0xDC00 ≤ low ∧ low ≤ 0xDFFF then some (surrogates high low, rest) else none
  | _ => none

/-- What stands after `\u`. -/
def codeUnits (cs : List Char) : Option (Char × List Char) :=
  (hex4 cs).bind fun (n, rest) =>
    if 0xDC00 ≤ n ∧ n ≤ 0xDFFF then none
    else if 0xD800 ≤ n ∧ n ≤ 0xDBFF then lowHalf n rest
    else some (Char.ofNat n, rest)

/-- What stands after a backslash. A slash may be escaped too. -/
def escaped : Reader Char
  | [] => none
  | letter :: rest =>
    if letter = 'u' then codeUnits rest
    else ((letters.map Prod.swap ++ [('/', '/')]).lookup letter).map fun c => (c, rest)

/-- A character of a string, or the quote that ends it. Control characters stand in escapes only. -/
def stringChar : Reader (Option Char)
  | '"' :: rest => some (none, rest)
  | '\\' :: rest => (escaped rest).map fun (c, rest) => (some c, rest)
  | c :: rest => if c.toNat < 32 then none else some (some c, rest)
  | [] => none

def stringChars : Nat → Reader (List Char)
  | 0, _ => none
  | fuel + 1, cs =>
    match stringChar cs with
    | none => none
    | some (none, rest) => some ([], rest)
    | some (some c, rest) => (stringChars fuel rest).map fun (s, rest) => (c :: s, rest)

/-- The rest of a string after its first quote. -/
def stringBody (cs : List Char) : Option (String × List Char) :=
  (stringChars (cs.length + 1) cs).map fun (s, rest) => (String.ofList s, rest)

theorem hexValue_hexDigit {n : Nat} (small : n < 16) : hexValue (hexDigit n) = some n := by
  have all : ∀ n < 16, hexValue (hexDigit n) = some n := by decide
  exact all n small

theorem escaped_letter {c letter : Char} (short : letters.lookup c = some letter) (cs : List Char) :
    escaped (letter :: cs) = some (c, cs) := by
  have all : ∀ pair ∈ letters, pair.2 ≠ 'u' ∧
      (letters.map Prod.swap ++ [('/', '/')]).lookup pair.2 = some pair.1 := by decide
  have member : (c, letter) ∈ letters := by
    obtain ⟨before, after, shape, -⟩ := List.lookup_eq_some_iff.mp short
    simp [shape]
  obtain ⟨plain, back⟩ := all (c, letter) member
  rw [escaped, if_neg plain, back]
  rfl

theorem stringChar_escape (c : Char) (cs : List Char) :
    stringChar (escape c ++ cs) = some (some c, cs) := by
  unfold escape
  cases short : letters.lookup c with
  | some letter =>
    show (escaped (letter :: cs)).map _ = _
    rw [escaped_letter short]
    rfl
  | none =>
    dsimp only
    split
    · next control =>
      have high := hexValue_hexDigit (n := c.toNat / 16) (by omega)
      have low := hexValue_hexDigit (n := c.toNat % 16) (by omega)
      have zero : hexValue '0' = some 0 := rfl
      have number : ((0 * 16 + 0) * 16 + c.toNat / 16) * 16 + c.toNat % 16 = c.toNat := by omega
      simp only [List.cons_append, List.nil_append, stringChar, escaped, codeUnits, hex4, zero, high, low,
        number, if_true, Option.bind_some]
      rw [if_neg (by omega), if_neg (by omega), Char.ofNat_toNat]
      rfl
    · next printable =>
      have quoteless : c ≠ '"' := fun same => by rw [same] at short; cases short
      have slashless : c ≠ '\\' := fun same => by rw [same] at short; cases short
      rw [List.singleton_append, stringChar.eq_def]
      split <;> simp_all

theorem length_escape_pos (c : Char) : 0 < (escape c).length := by
  unfold escape
  repeat' split
  all_goals simp

theorem stringChars_flatMap (s cs : List Char) {fuel : Nat} (enough : s.length < fuel) :
    stringChars fuel (s.flatMap escape ++ '"' :: cs) = some (s, cs) := by
  induction s generalizing fuel with
  | nil =>
    obtain ⟨fuel, rfl⟩ := Nat.exists_eq_succ_of_ne_zero (Nat.ne_of_gt enough)
    rfl
  | cons c s ih =>
    obtain ⟨fuel, rfl⟩ := Nat.exists_eq_succ_of_ne_zero (Nat.ne_of_gt (Nat.zero_lt_of_lt enough))
    have below : s.length < fuel := by simpa using enough
    rw [List.flatMap_cons, List.append_assoc, stringChars, stringChar_escape]
    dsimp only
    rw [ih below]
    rfl

theorem length_le_flatMap (s : List Char) : s.length ≤ (s.flatMap escape).length := by
  induction s with
  | nil => simp
  | cons c s ih =>
    have := length_escape_pos c
    rw [List.flatMap_cons, List.length_append, List.length_cons]
    omega

theorem stringBody_quote (s : String) (cs : List Char) :
    stringBody (s.toList.flatMap escape ++ '"' :: cs) = some (s, cs) := by
  have long := length_le_flatMap s.toList
  rw [stringBody, stringChars_flatMap _ _ (by rw [List.length_append]; omega)]
  simp

/-! ### Numbers -/

def isNumberChar (c : Char) : Bool := c.isDigit || c == '-' || c == '+' || c == '.' || c == 'e' || c == 'E'

def isExponent : List Char → Bool
  | [] => true
  | mark :: rest =>
    let digits :=
      match rest with
      | '+' :: digits => digits
      | '-' :: digits => digits
      | digits => digits
    (mark == 'e' || mark == 'E') && !digits.isEmpty && digits.all Char.isDigit

/-- A fraction and an exponent, where there are any. -/
def isTail : List Char → Bool
  | '.' :: rest => !(rest.takeWhile Char.isDigit).isEmpty && isExponent (rest.dropWhile Char.isDigit)
  | rest => isExponent rest

/-- A whole number that 64 bits hold is an integer; `-0` is not one. -/
def numberOf (lexeme : List Char) : Option Json :=
  let negative := lexeme.head? == some '-'
  let body := if negative then lexeme.tail else lexeme
  let whole := body.takeWhile Char.isDigit
  let tail := body.dropWhile Char.isDigit
  if whole.isEmpty || (whole.head? == some '0' && whole != ['0']) || !isTail tail then none
  else
    let n := Text.signed negative (Nat.ofDigitChars 10 whole 0)
    if tail = [] ∧ -9223372036854775808 ≤ n ∧ n < 18446744073709551616 ∧ ¬(negative ∧ n = 0) then
      some (.int n)
    else some (.float (String.ofList lexeme))

def number (cs : List Char) : Option (Json × List Char) :=
  (numberOf (cs.takeWhile isNumberChar)).map fun n => (n, cs.dropWhile isNumberChar)

/-- No character that would continue a number comes first. -/
def Ends (cs : List Char) : Prop := ∀ c ∈ cs.head?, isNumberChar c = false

theorem ends_nil : Ends [] := by
  intro c first
  cases first

theorem ends_cons {c : Char} (other : isNumberChar c = false) (cs : List Char) : Ends (c :: cs) := by
  intro d first
  cases first
  exact other

theorem number_append {lexeme rest : List Char} {n : Json} (value : numberOf lexeme = some n)
    (all : ∀ c ∈ lexeme, isNumberChar c = true) (ends : Ends rest) :
    number (lexeme ++ rest) = some (n, rest) := by
  have taken : (lexeme ++ rest).takeWhile isNumberChar = lexeme := by
    rw [List.takeWhile_append_of_pos all]
    cases rest with
    | nil => simp
    | cons c rest => simp [ends c rfl]
  have left : (lexeme ++ rest).dropWhile isNumberChar = rest := by
    rw [List.dropWhile_append_of_pos all]
    cases rest with
    | nil => rfl
    | cons c rest => simp [ends c rfl]
  rw [number, taken, left, value]
  rfl

theorem digitChar_ne_zero {n : Nat} (small : n < 10) (positive : 0 < n) : n.digitChar ≠ '0' := by
  have all : ∀ n < 10, 0 < n → n.digitChar ≠ '0' := by decide
  exact all n small positive

/-- Only zero is written with a zero first. -/
theorem head_toDigits {n : Nat} (positive : 0 < n) : (Nat.toDigits 10 n).head? ≠ some '0' := by
  induction n using Nat.strong_induction_on with
  | _ n ih =>
    by_cases small : n < 10
    · rw [Nat.toDigits_of_lt_base small]
      simpa using digitChar_ne_zero small positive
    · have shorter := ih (n / 10) (by omega) (by omega)
      rw [Nat.toDigits_of_base_le (by decide) (by omega)]
      obtain ⟨c, cs, shape, -⟩ := Text.toDigits_eq_cons (n / 10)
      rw [shape] at shorter ⊢
      simpa using shorter

theorem takeWhile_digits (n : Nat) : (Nat.toDigits 10 n).takeWhile Char.isDigit = Nat.toDigits 10 n :=
  List.takeWhile_eq_self_iff.mpr (Text.isDigit_toDigits n)

theorem dropWhile_digits (n : Nat) : (Nat.toDigits 10 n).dropWhile Char.isDigit = [] :=
  List.dropWhile_eq_nil_iff.mpr (Text.isDigit_toDigits n)

theorem leading_zero (n : Nat) :
    ((Nat.toDigits 10 n).head? == some '0' && Nat.toDigits 10 n != ['0']) = false := by
  by_cases zero : n = 0
  · rw [zero]
    rfl
  · simp [head_toDigits (Nat.pos_of_ne_zero zero)]

/-- The integers that have a 64-bit representation. -/
def InRange (n : Int) : Prop := -9223372036854775808 ≤ n ∧ n < 18446744073709551616

theorem numberOf_toString {n : Int} (range : InRange n) : numberOf (toString n).toList = some (.int n) := by
  obtain ⟨low, high⟩ := range
  by_cases nonneg : 0 ≤ n
  · obtain ⟨c, cs, shape, digit⟩ := Text.toDigits_eq_cons n.toNat
    have minus : c ≠ '-' := Text.ne_of_isDigit digit rfl
    have unsigned : ((Nat.toDigits 10 n.toNat).head? == some '-') = false := by simp [shape, minus]
    have nonempty : (Nat.toDigits 10 n.toNat).isEmpty = false := by simp [shape]
    have value : Text.signed false n.toNat = n := by simp [Text.signed, nonneg]
    rw [Text.toList_toString_nonneg nonneg]
    unfold numberOf
    simp only [unsigned, Bool.false_eq_true, if_false, takeWhile_digits, dropWhile_digits, nonempty,
      leading_zero, Nat.ofDigitChars_ten_toDigits, value]
    simp [isTail, isExponent, low, high]
  · have nonempty : (Nat.toDigits 10 (-n).toNat).isEmpty = false := by simp [Nat.toDigits_ne_nil]
    have value : Text.signed true (-n).toNat = n := by
      simp only [Text.signed, if_true]
      omega
    rw [Text.toList_toString_neg (by omega)]
    unfold numberOf
    simp only [List.head?_cons, beq_self_eq_true, if_true, List.tail_cons, takeWhile_digits,
      dropWhile_digits, nonempty, leading_zero, Nat.ofDigitChars_ten_toDigits, value]
    have nonzero : n ≠ 0 := by omega
    simp [isTail, isExponent, low, high, nonzero]

theorem isNumberChar_toString (n : Int) : ∀ c ∈ (toString n).toList, isNumberChar c = true := by
  have digits (k : Nat) : ∀ c ∈ Nat.toDigits 10 k, isNumberChar c = true := by
    intro c member
    simp [isNumberChar, Text.isDigit_toDigits k c member]
  by_cases nonneg : 0 ≤ n
  · rw [Text.toList_toString_nonneg nonneg]
    exact digits _
  · rw [Text.toList_toString_neg (by omega)]
    exact List.forall_mem_cons.mpr ⟨rfl, digits _⟩

end JsonText
end HyprPilot
