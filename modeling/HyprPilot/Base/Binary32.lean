import HyprPilot.Base.Decimal
import Mathlib.Data.Int.Log

/-!
# Reading an `f32`

`f32::from_str` and the cast `as i32` of its result. A decimal text stands for a rational number,
which is rounded to the nearest 24-bit significand, ties to even; the cast drops the fraction.
Whole numbers below `2 ^ 24` are kept as they are.
-/

inductive Binary32 where
  | nan
  | infinite (negative : Bool)
  | finite (value : ℚ)
  deriving DecidableEq

namespace Binary32

def roundEven (q : ℚ) : Int :=
  let k := ⌊q⌋
  if q - k < 1 / 2 then k
  else if 1 / 2 < q - k then k + 1
  else k + k % 2

/-- The exponent of the last place; below the normal numbers the places stop. -/
def placeExponent (q : ℚ) : Int := max (-126) (Int.log 2 |q|) - 23

def ofRat (q : ℚ) : Binary32 :=
  let place : ℚ := 2 ^ placeExponent q
  let rounded := roundEven (q / place) * place
  if |rounded| < 2 ^ 128 then .finite rounded else .infinite (q < 0)

/-- `as i32`. -/
def toI32 : Binary32 → Int
  | .nan => 0
  | .infinite negative => if negative then -2147483648 else 2147483647
  | .finite q => Machine.sat32 (if 0 ≤ q then ⌊q⌋ else ⌈q⌉)

/-! ### The texts -/

def natural (cs : List Char) : Option Nat :=
  if cs.isEmpty || !cs.all Char.isDigit then none else some (Nat.ofDigitChars 10 cs 0)

def exponent : List Char → Option Int
  | [] => some 0
  | c :: cs =>
    if c = 'e' ∨ c = 'E' then
      match cs with
      | '+' :: ds => (natural ds).map fun n => (n : Int)
      | '-' :: ds => (natural ds).map fun n => -(n : Int)
      | ds => (natural ds).map fun n => (n : Int)
    else none

/-- Digits with a point before, in or after them, or without one, and an exponent. -/
def magnitude (cs : List Char) : Option ℚ :=
  let whole := cs.takeWhile Char.isDigit
  let (fraction, tail) :=
    match cs.dropWhile Char.isDigit with
    | '.' :: after => (after.takeWhile Char.isDigit, after.dropWhile Char.isDigit)
    | rest => ([], rest)
  if whole.isEmpty && fraction.isEmpty then none
  else (exponent tail).map fun e : Int =>
    (Nat.ofDigitChars 10 (whole ++ fraction) 0 : ℚ) * 10 ^ (e - (fraction.length : Int))

def special (negative : Bool) (name : String) : Option Binary32 :=
  if name = "inf" ∨ name = "infinity" then some (.infinite negative)
  else if name = "nan" then some .nan
  else none

def unsigned (negative : Bool) (cs : List Char) : Option Binary32 :=
  match magnitude cs with
  | some q => some (ofRat (if negative then -q else q))
  | none => special negative (Text.asciiLower (String.ofList cs))

def parseChars : List Char → Option Binary32
  | '-' :: cs => unsigned true cs
  | '+' :: cs => unsigned false cs
  | cs => unsigned false cs

def parse (s : String) : Option Binary32 := parseChars s.toList

/-! ### Whole numbers -/

@[simp] theorem roundEven_intCast (n : Int) : roundEven n = n := by
  simp [roundEven]

theorem placeExponent_nonpos {n : Int} (small : n.natAbs < 2 ^ 24) : placeExponent n ≤ 0 := by
  have cast : |(n : ℚ)| = (n.natAbs : ℚ) := by
    rw [← Int.cast_abs, Int.abs_eq_natAbs]
    rfl
  have log : Nat.log 2 n.natAbs < 24 := Nat.log_lt_of_lt_pow' (by decide) small
  rw [placeExponent, cast, Int.log_natCast]
  omega

theorem ofRat_intCast {n : Int} (small : n.natAbs < 2 ^ 24) : ofRat n = .finite n := by
  obtain ⟨k, exponent⟩ : ∃ k : Nat, placeExponent n = -(k : Int) :=
    ⟨(-placeExponent n).toNat, by have := placeExponent_nonpos small; omega⟩
  have place : (2 : ℚ) ^ placeExponent n = (2 ^ k)⁻¹ := by rw [exponent, zpow_neg, zpow_natCast]
  have scaled : (n : ℚ) / (2 ^ k)⁻¹ = ((n * 2 ^ k : Int) : ℚ) := by
    push_cast
    rw [div_inv_eq_mul]
  have back : ((n * 2 ^ k : Int) : ℚ) * (2 ^ k)⁻¹ = n := by
    push_cast
    exact mul_inv_cancel_right₀ (by positivity) _
  have bound : |(n : ℚ)| < 2 ^ 128 := by
    have inside : |n| < 2 ^ 128 := by
      rw [Int.abs_eq_natAbs]
      omega
    exact_mod_cast inside
  simp only [ofRat, place, scaled, roundEven_intCast, back, if_pos bound]

theorem magnitude_digits {cs : List Char} (inhabited : cs ≠ []) (all : ∀ c ∈ cs, c.isDigit = true) :
    magnitude cs = some (Nat.ofDigitChars 10 cs 0 : ℚ) := by
  have taken : cs.takeWhile Char.isDigit = cs := List.takeWhile_eq_self_iff.mpr all
  have dropped : cs.dropWhile Char.isDigit = [] := List.dropWhile_eq_nil_iff.mpr all
  simp [magnitude, taken, dropped, inhabited, exponent]

theorem magnitude_toDigits (n : Nat) : magnitude (Nat.toDigits 10 n) = some (n : ℚ) := by
  rw [magnitude_digits Nat.toDigits_ne_nil (Text.isDigit_toDigits n), Nat.ofDigitChars_ten_toDigits]

theorem parseChars_digit {c : Char} {cs : List Char} (digit : c.isDigit = true) :
    parseChars (c :: cs) = unsigned false (c :: cs) := by
  have plus : c ≠ '+' := Text.ne_of_isDigit digit rfl
  have minus : c ≠ '-' := Text.ne_of_isDigit digit rfl
  unfold parseChars
  split <;> simp_all

theorem parseChars_toDigits (n : Nat) : parseChars (Nat.toDigits 10 n) = some (ofRat n) := by
  obtain ⟨c, cs, shape, digit⟩ := Text.toDigits_eq_cons n
  rw [shape, parseChars_digit digit, ← shape, unsigned, magnitude_toDigits]
  rfl

/-- The decimal text of a small whole number is read as that number. -/
theorem parse_toString {n : Int} (small : n.natAbs < 2 ^ 24) :
    parse (toString n) = some (.finite n) := by
  by_cases nonneg : 0 ≤ n
  · have value : ((n.toNat : Nat) : ℚ) = n := by exact_mod_cast Int.toNat_of_nonneg nonneg
    rw [parse, Text.toList_toString_nonneg nonneg, parseChars_toDigits, value, ofRat_intCast small]
  · have value : -(((-n).toNat : Nat) : ℚ) = n := by
      have whole : -(((-n).toNat : Nat) : Int) = n := by omega
      exact_mod_cast whole
    rw [parse, Text.toList_toString_neg (by omega)]
    show unsigned true _ = _
    rw [unsigned, magnitude_toDigits]
    simp only [if_true, value, ofRat_intCast small]

theorem toI32_intCast {n : Int} (fits : Machine.InI32 n) : toI32 (.finite n) = n := by
  have whole : (if 0 ≤ (n : ℚ) then ⌊(n : ℚ)⌋ else ⌈(n : ℚ)⌉) = n := by simp
  rw [toI32, whole, Machine.sat32_of_in fits]

end Binary32
