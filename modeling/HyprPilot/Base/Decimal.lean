import HyprPilot.Base.Text
import Mathlib.Tactic.Ring

/-!
# Decimal texts

The decimal text of an `i32` is read back as the number.
-/

namespace Text
open Machine

def signed (negative : Bool) (n : Nat) : Int := if negative then -n else n

theorem le_ofDigitChars (cs : List Char) (n : Nat) : n ≤ Nat.ofDigitChars 10 cs n := by
  induction cs generalizing n with
  | nil => simp
  | cons c cs ih =>
    rw [Nat.ofDigitChars_cons]
    have later := ih (10 * n + (c.toNat - '0'.toNat))
    omega

/-- No digit on the way leaves the range when the whole number is in it. -/
theorem digits_signed (negative : Bool) {cs : List Char} (all : ∀ c ∈ cs, c.isDigit = true) {n : Nat}
    (fits : InI32 (signed negative (Nat.ofDigitChars 10 cs n))) :
    digits negative (signed negative n) cs = .ok (signed negative (Nat.ofDigitChars 10 cs n)) := by
  induction cs generalizing n with
  | nil =>
    rw [Nat.ofDigitChars_nil]
    rfl
  | cons c cs ih =>
    obtain ⟨digit, rest⟩ := List.forall_mem_cons.mp all
    rw [Nat.ofDigitChars_cons] at fits ⊢
    have bound := le_ofDigitChars cs (10 * n + (c.toNat - '0'.toNat))
    have next : (if negative then signed negative n * 10 - (c.toNat - 48 : Nat)
        else signed negative n * 10 + (c.toNat - 48 : Nat)) =
        signed negative (10 * n + (c.toNat - '0'.toNat)) := by
      have zero : '0'.toNat = 48 := rfl
      rw [zero]
      cases negative <;> simp [signed] <;> ring
    have inside : InI32 (signed negative (10 * n + (c.toNat - '0'.toNat))) := by
      unfold InI32 signed at *
      cases negative <;> simp at * <;> omega
    rw [digits, if_pos digit]
    dsimp only
    rw [next, if_pos inside, ih rest fits]

theorem isDigit_toDigits (n : Nat) : ∀ c ∈ Nat.toDigits 10 n, c.isDigit = true :=
  fun _ member => Nat.isDigit_of_mem_toDigits (by decide) (by decide) member

theorem toDigits_eq_cons (n : Nat) : ∃ c cs, Nat.toDigits 10 n = c :: cs ∧ c.isDigit = true := by
  obtain ⟨c, cs, shape⟩ := List.exists_cons_of_ne_nil (Nat.toDigits_ne_nil (n := n) (b := 10))
  exact ⟨c, cs, shape, isDigit_toDigits n c (by rw [shape]; exact List.mem_cons_self)⟩

theorem ne_of_isDigit {c d : Char} (digit : c.isDigit = true) (other : d.isDigit = false) : c ≠ d := by
  rintro rfl
  rw [other] at digit
  cases digit

/-- The digits of a number: at least one, and they give the number back. -/
theorem digits_toDigits (negative : Bool) {n : Nat} (fits : InI32 (signed negative n)) :
    ∃ c cs, Nat.toDigits 10 n = c :: cs ∧ c.isDigit = true ∧
      digits negative 0 (c :: cs) = .ok (signed negative n) := by
  obtain ⟨c, cs, shape, digit⟩ := toDigits_eq_cons n
  have parsed := digits_signed negative (isDigit_toDigits n) (n := 0)
    (by rwa [Nat.ofDigitChars_ten_toDigits])
  have zero : signed negative 0 = 0 := by cases negative <;> rfl
  rw [Nat.ofDigitChars_ten_toDigits, zero, shape] at parsed
  exact ⟨c, cs, shape, digit, parsed⟩

theorem parseI32Chars_digit {c : Char} {cs : List Char} (digit : c.isDigit = true) :
    parseI32Chars (c :: cs) = digits false 0 (c :: cs) := by
  have plus : c ≠ '+' := ne_of_isDigit digit rfl
  have minus : c ≠ '-' := ne_of_isDigit digit rfl
  unfold parseI32Chars
  split <;> simp_all

theorem toList_toString_nonneg {n : Int} (nonneg : 0 ≤ n) :
    (toString n).toList = Nat.toDigits 10 n.toNat := by
  rw [Int.toString_eq_repr, Int.repr_eq_if, if_pos nonneg, Nat.toList_repr]

theorem toList_toString_neg {n : Int} (negative : n < 0) :
    (toString n).toList = '-' :: Nat.toDigits 10 (-n).toNat := by
  rw [Int.toString_eq_repr, Int.repr_eq_if, if_neg (by omega), String.toList_append, Nat.toList_repr]
  rfl

/-- The text has digits and a sign only. -/
theorem absent_of_toString {c : Char} (digitless : c.isDigit = false) (minus : c ≠ '-') (n : Int) :
    c ∉ (toString n).toList := by
  have digits (k : Nat) : c ∉ Nat.toDigits 10 k := fun member =>
    ne_of_isDigit (isDigit_toDigits k c member) digitless rfl
  by_cases nonneg : 0 ≤ n
  · rw [toList_toString_nonneg nonneg]
    exact digits _
  · rw [toList_toString_neg (by omega), List.mem_cons, not_or]
    exact ⟨minus, digits _⟩

theorem parseI32_nonneg {n : Int} (fits : InI32 n) (nonneg : 0 ≤ n) :
    parseI32 (toString n) = .ok n := by
  have value : signed false n.toNat = n := by simp [signed, nonneg]
  obtain ⟨c, cs, shape, digit, parsed⟩ := digits_toDigits false (n := n.toNat) (by rwa [value])
  rw [parseI32, toList_toString_nonneg nonneg, shape, parseI32Chars_digit digit, parsed, value]

theorem parseI32_neg {n : Int} (fits : InI32 n) (negative : n < 0) :
    parseI32 (toString n) = .ok n := by
  have value : signed true (-n).toNat = n := by
    simp only [signed, if_true]
    omega
  obtain ⟨c, cs, shape, -, parsed⟩ := digits_toDigits true (n := (-n).toNat) (by rwa [value])
  rw [parseI32, toList_toString_neg negative, shape]
  show digits true 0 (c :: cs) = _
  rw [parsed, value]

theorem parseI32_toString {n : Int} (fits : InI32 n) : parseI32 (toString n) = .ok n := by
  by_cases nonneg : 0 ≤ n
  · exact parseI32_nonneg fits nonneg
  · exact parseI32_neg fits (by omega)

theorem digits_inI32 {negative : Bool} {cs : List Char} {acc n : Int} (start : InI32 acc)
    (read : digits negative acc cs = .ok n) : InI32 n := by
  induction cs generalizing acc with
  | nil =>
    cases read
    exact start
  | cons c rest ih =>
    rw [digits] at read
    by_cases digit : c.isDigit = true
    · rw [if_pos digit] at read
      dsimp only at read
      by_cases inside : InI32 (if negative = true then acc * 10 - ((c.toNat - 48 : Nat) : Int)
          else acc * 10 + ((c.toNat - 48 : Nat) : Int))
      · rw [if_pos inside] at read
        exact ih inside read
      · rw [if_neg inside] at read
        cases read
    · rw [if_neg digit] at read
      cases read

theorem parseI32_inI32 {s : String} {n : Int} (read : parseI32 s = .ok n) : InI32 n := by
  have zero : InI32 0 := by decide
  unfold parseI32 parseI32Chars at read
  split at read
  · cases read
  · cases read
  · cases read
  · exact digits_inI32 zero read
  · exact digits_inI32 zero read
  · exact digits_inI32 zero read

end Text
