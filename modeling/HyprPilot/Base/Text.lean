import HyprPilot.Base.Int32
import Mathlib.Data.List.TakeWhile
import Mathlib.Data.String.Basic

/-!
# Text

The string operations of Rust's standard library that the program uses, on lists of characters:
splitting, trimming, prefixes, ASCII case and decimal `i32` text.
-/

namespace Text

/-- `char::is_whitespace`: the characters of Unicode's `White_Space` property. -/
def isWhite (c : Char) : Bool :=
  let n := c.toNat
  (9 ≤ n && n ≤ 13) || n == 0x20 || n == 0x85 || n == 0xA0 || n == 0x1680 ||
    (0x2000 ≤ n && n ≤ 0x200A) || n == 0x2028 || n == 0x2029 || n == 0x202F || n == 0x205F ||
    n == 0x3000

def trimChars (cs : List Char) : List Char :=
  ((cs.dropWhile isWhite).reverse.dropWhile isWhite).reverse

def trim (s : String) : String := String.ofList (trimChars s.toList)

/-- `str::split` on one character: `n` separators make `n + 1` pieces. -/
def splitOn (sep : Char) (s : String) : List String := (s.toList.splitOn sep).map String.ofList

def splitWhitespace (s : String) : List String :=
  ((s.toList.splitOnP isWhite).filter (!·.isEmpty)).map String.ofList

theorem white_of_pieces {cs : List Char} (pieces : ∀ piece ∈ cs.splitOnP isWhite, piece = []) :
    ∀ c ∈ cs, isWhite c = true := by
  induction cs with
  | nil => simp
  | cons c cs ih =>
    rw [List.splitOnP_cons_eq_if_modifyHead] at pieces
    split at pieces
    · rename_i white
      have rest := ih fun piece member => pieces piece (List.mem_cons_of_mem _ member)
      exact List.forall_mem_cons.mpr ⟨white, rest⟩
    · obtain ⟨head, tail, shape⟩ := List.exists_cons_of_ne_nil (List.splitOnP_ne_nil isWhite cs)
      rw [shape] at pieces
      cases pieces (c :: head) List.mem_cons_self

theorem trim_of_splitWhitespace {s : String} (blank : splitWhitespace s = []) :
    (trim s).isEmpty = true := by
  have pieces : ∀ piece ∈ s.toList.splitOnP isWhite, piece = [] := by
    have empty := List.map_eq_nil_iff.mp blank
    simpa [List.filter_eq_nil_iff] using empty
  have white := white_of_pieces pieces
  have dropped : s.toList.dropWhile isWhite = [] := List.dropWhile_eq_nil_iff.mpr white
  rw [trim, trimChars, dropped]
  rfl

def stripPrefix (pre s : String) : Option String :=
  (pre.toList.isPrefixOf? s.toList).map String.ofList

def stripSuffix (suf s : String) : Option String :=
  (suf.toList.reverse.isPrefixOf? s.toList.reverse).map fun rest => String.ofList rest.reverse

def startsWith (pre s : String) : Bool := pre.toList.isPrefixOf s.toList

def splitOnceChars (sep : List Char) : List Char → Option (List Char × List Char)
  | [] => (sep.isPrefixOf? []).map fun rest => ([], rest)
  | c :: cs =>
    match sep.isPrefixOf? (c :: cs) with
    | some rest => some ([], rest)
    | none => (splitOnceChars sep cs).map fun (before, rest) => (c :: before, rest)

def splitOnce (sep s : String) : Option (String × String) :=
  (splitOnceChars sep.toList s.toList).map fun (before, rest) =>
    (String.ofList before, String.ofList rest)

def asciiLower (s : String) : String :=
  String.ofList (s.toList.map fun c => if c.isUpper then Char.ofNat (c.toNat + 32) else c)

def joinWith (sep : String) : List String → String
  | [] => ""
  | [s] => s
  | s :: rest => s ++ sep ++ joinWith sep rest

theorem joinWith_cons (sep s : String) {rest : List String} (more : rest ≠ []) :
    joinWith sep (s :: rest) = s ++ sep ++ joinWith sep rest := by
  cases rest with
  | nil => exact absurd rfl more
  | cons => rfl

theorem toList_joinWith (sep : String) (parts : List String) :
    (joinWith sep parts).toList = sep.toList.intercalate (parts.map String.toList) := by
  induction parts with
  | nil => rfl
  | cons s rest ih =>
    cases rest with
    | nil => simp [joinWith]
    | cons t more =>
      rw [joinWith_cons sep s (by simp), String.toList_append, String.toList_append, ih]
      simp [List.intercalate]

theorem joinWith_splitOn (sep : Char) (s : String) :
    joinWith (String.singleton sep) (splitOn sep s) = s := by
  apply String.toList_inj.mp
  rw [toList_joinWith, splitOn, List.map_map]
  have same : String.toList ∘ String.ofList = id := by
    funext cs
    exact String.toList_ofList
  rw [same, List.map_id, String.toList_singleton]
  exact List.intercalate_splitOn sep

theorem clear_of_absent {sep : Char} {cs : List Char} (absent : sep ∉ cs) :
    ∀ c ∈ cs, (c == sep) = false := by
  intro c member
  apply beq_false_of_ne
  intro same
  rw [same] at member
  exact absent member

theorem splitOn_append {sep : Char} {s : String} (absent : sep ∉ s.toList) (t : String) :
    splitOn sep (s ++ String.singleton sep ++ t) = s :: splitOn sep t := by
  have shape : (s ++ String.singleton sep ++ t).toList = s.toList ++ sep :: t.toList := by simp
  have clear := clear_of_absent absent
  unfold splitOn
  rw [shape, List.splitOn_eq_splitOnP, List.splitOnP_append_cons_of_forall_mem clear sep (by simp),
    List.map_cons, String.ofList_toList, List.splitOn_eq_splitOnP]

inductive ParseIntError where
  | empty | invalidDigit | posOverflow | negOverflow
  deriving DecidableEq

def ParseIntError.text : ParseIntError → String
  | .empty => "cannot parse integer from empty string"
  | .invalidDigit => "invalid digit found in string"
  | .posOverflow => "number too large to fit in target type"
  | .negOverflow => "number too small to fit in target type"

def digits (negative : Bool) : Int → List Char → Except ParseIntError Int
  | acc, [] => .ok acc
  | acc, c :: cs =>
    if c.isDigit then
      let d : Int := (c.toNat - 48 : Nat)
      let next := if negative then acc * 10 - d else acc * 10 + d
      if Machine.InI32 next then digits negative next cs
      else .error (if negative then .negOverflow else .posOverflow)
    else .error .invalidDigit

def parseI32Chars : List Char → Except ParseIntError Int
  | [] => .error .empty
  | ['+'] | ['-'] => .error .invalidDigit
  | '+' :: cs => digits false 0 cs
  | '-' :: cs => digits true 0 cs
  | cs => digits false 0 cs

def parseI32 (s : String) : Except ParseIntError Int := parseI32Chars s.toList

theorem digit_ascii {c : Char} (digit : c.isDigit) : c.utf8Size = 1 := by
  rw [Char.utf8Size_eq_one_iff]
  simp only [Char.isDigit, Bool.and_eq_true, decide_eq_true_eq] at digit
  exact Nat.le_trans digit.2 (by decide)

theorem utf8ByteSize_of_ascii {s : String} (ascii : ∀ c ∈ s.toList, c.utf8Size = 1) :
    s.utf8ByteSize = s.toList.length := by
  have counted : ∀ cs : List Char, (∀ c ∈ cs, c.utf8Size = 1) →
      (String.ofList cs).utf8ByteSize = cs.length := by
    intro cs
    induction cs with
    | nil => intro _; rfl
    | cons c cs ih =>
      intro small
      have rest := ih fun d member => small d (List.mem_cons_of_mem _ member)
      have first := small c List.mem_cons_self
      rw [String.utf8ByteSize_ofList] at rest ⊢
      rw [String.utf8Len_cons, rest, first, List.length_cons]
  rw [← counted s.toList ascii, String.ofList_toList]

/-- The bytes that can follow a lead byte of UTF-8, with the length of its sequence. -/
def secondByte (b : UInt8) : Option (UInt8 × UInt8 × Nat) :=
  if 0xC2 ≤ b ∧ b ≤ 0xDF then some (0x80, 0xBF, 2)
  else if b = 0xE0 then some (0xA0, 0xBF, 3)
  else if b = 0xED then some (0x80, 0x9F, 3)
  else if 0xE1 ≤ b ∧ b ≤ 0xEF then some (0x80, 0xBF, 3)
  else if b = 0xF0 then some (0x90, 0xBF, 4)
  else if 0xF1 ≤ b ∧ b ≤ 0xF3 then some (0x80, 0xBF, 4)
  else if b = 0xF4 then some (0x80, 0x8F, 4)
  else none

def continues (b : UInt8) : Bool := 0x80 ≤ b && b ≤ 0xBF

def replacement : Char := Char.ofNat 0xFFFD

def ofPayload (lead : Nat) (rest : List UInt8) : Char :=
  Char.ofNat (rest.foldl (fun n b => n * 64 + (b.toNat - 0x80)) lead)

/-- `String::from_utf8_lossy`: each maximal broken prefix of a sequence becomes U+FFFD. -/
def utf8LossyChars : List UInt8 → List Char
  | [] => []
  | b0 :: after0 =>
    if b0 < 0x80 then Char.ofNat b0.toNat :: utf8LossyChars after0
    else
      match secondByte b0 with
      | none => replacement :: utf8LossyChars after0
      | some (lo, hi, width) =>
        match after0 with
        | [] => [replacement]
        | b1 :: after1 =>
          if b1 < lo ∨ hi < b1 then replacement :: utf8LossyChars (b1 :: after1)
          else if width = 2 then ofPayload (b0.toNat - 0xC0) [b1] :: utf8LossyChars after1
          else
            match after1 with
            | [] => [replacement]
            | b2 :: after2 =>
              if !continues b2 then replacement :: utf8LossyChars (b2 :: after2)
              else if width = 3 then ofPayload (b0.toNat - 0xE0) [b1, b2] :: utf8LossyChars after2
              else
                match after2 with
                | [] => [replacement]
                | b3 :: after3 =>
                  if !continues b3 then replacement :: utf8LossyChars (b3 :: after3)
                  else ofPayload (b0.toNat - 0xF0) [b1, b2, b3] :: utf8LossyChars after3

def utf8Lossy (bytes : List UInt8) : String := String.ofList (utf8LossyChars bytes)

example : utf8LossyChars [0x61, 0xC3, 0xA9, 0xE2, 0x82, 0x62] =
    ['a', Char.ofNat 0xE9, replacement, 'b'] := by decide

/-! ### Debug texts -/

/-- Characters that have no picture: control and format characters, the white space other than the
blank, and those for private use. -/
def isHidden (c : Char) : Bool :=
  let n := c.toNat
  n < 0x20 || (0x7F ≤ n && n ≤ 0x9F) || (isWhite c && c != ' ') || n == 0xAD ||
    (0x600 ≤ n && n ≤ 0x605) || n == 0x61C || n == 0x6DD || n == 0x70F || n == 0x890 || n == 0x891 ||
    n == 0x8E2 || n == 0x180E || (0x200B ≤ n && n ≤ 0x200F) || (0x202A ≤ n && n ≤ 0x202E) ||
    (0x2060 ≤ n && n ≤ 0x206F) || n == 0xFEFF || (0xFFF9 ≤ n && n ≤ 0xFFFB) || n == 0x110BD ||
    n == 0x110CD || (0x13430 ≤ n && n ≤ 0x1343F) || (0x1BCA0 ≤ n && n ≤ 0x1BCA3) ||
    (0x1D173 ≤ n && n ≤ 0x1D17A) || n == 0xE0001 || (0xE0020 ≤ n && n ≤ 0xE007F) ||
    (0xE000 ≤ n && n ≤ 0xF8FF) || 0xF0000 ≤ n

def debugChar (c : Char) : List Char :=
  if c = '"' then ['\\', '"']
  else if c = '\\' then ['\\', '\\']
  else if c = '\n' then ['\\', 'n']
  else if c = '\r' then ['\\', 'r']
  else if c = '\t' then ['\\', 't']
  else if c.toNat = 0 then ['\\', '0']
  else if isHidden c then ['\\', 'u', '\x7b'] ++ Nat.toDigits 16 c.toNat ++ ['\x7d']
  else [c]

/-- A string as a debug format prints it. -/
def debug (s : String) : String := "\"" ++ String.ofList (s.toList.flatMap debugChar) ++ "\""

example : debugChar (Char.ofNat 27) = ['\\', 'u', '\x7b', '1', 'b', '\x7d'] := by decide

end Text
