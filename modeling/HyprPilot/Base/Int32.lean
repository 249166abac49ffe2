import Mathlib.Algebra.Order.Floor.Ring
import Mathlib.Data.Rat.Floor
import Mathlib.Tactic.Linarith

/-!
# 32-bit integers and rounding

An `i32` is an `Int` in the range `InI32`. `wrap32` is the value an arithmetic result takes when it
is stored (two's complement), `sat32` the value a saturating operation or a float cast takes; both
are the identity on the range. `roundHalfAway` rounds halves away from zero.
-/

namespace Machine

def InI32 (n : Int) : Prop := -2147483648 ≤ n ∧ n ≤ 2147483647

instance : DecidablePred InI32 := fun _ => inferInstanceAs (Decidable (_ ∧ _))

def wrap32 (n : Int) : Int := (n + 2147483648) % 4294967296 - 2147483648

def sat32 (n : Int) : Int := max (-2147483648) (min 2147483647 n)

theorem wrap32_of_in {n : Int} (h : InI32 n) : wrap32 n = n := by
  obtain ⟨low, high⟩ := h
  unfold wrap32
  omega

theorem inI32_wrap32 (n : Int) : InI32 (wrap32 n) := by
  unfold InI32 wrap32
  omega

theorem inI32_sat32 (n : Int) : InI32 (sat32 n) := by
  unfold InI32 sat32
  omega

theorem sat32_of_in {n : Int} (h : InI32 n) : sat32 n = n := by
  obtain ⟨low, high⟩ := h
  unfold sat32
  omega

def roundHalfAway (q : ℚ) : Int := if 0 ≤ q then ⌊q + 1 / 2⌋ else ⌈q - 1 / 2⌉

theorem sub_lt_one_of_roundHalfAway_eq {a b : ℚ} (equal : roundHalfAway a = roundHalfAway b) :
    a - b < 1 := by
  unfold roundHalfAway at equal
  by_cases hb : 0 ≤ b
  · rw [if_pos hb] at equal
    by_cases ha : 0 ≤ a
    · rw [if_pos ha] at equal
      have above := Int.lt_floor_add_one (a + 1 / 2)
      have below := Int.floor_le (b + 1 / 2)
      rw [equal] at above
      linarith
    · linarith
  · rw [if_neg hb] at equal
    have below := Int.ceil_lt_add_one (b - 1 / 2)
    by_cases ha : 0 ≤ a
    · rw [if_pos ha] at equal
      have above := Int.lt_floor_add_one (a + 1 / 2)
      have nonneg : 0 ≤ ⌊a + 1 / 2⌋ := Int.floor_nonneg.mpr (by linarith)
      have nonpos : ⌈b - 1 / 2⌉ ≤ 0 := Int.ceil_le.mpr (by push_cast; linarith)
      have zero : ⌊a + 1 / 2⌋ = 0 := by omega
      rw [← equal, zero] at below
      rw [zero] at above
      push_cast at above below
      linarith
    · rw [if_neg ha] at equal
      have above := Int.le_ceil (a - 1 / 2)
      rw [equal] at above
      linarith

/-- The half above an integer is rounded down to it only below zero. -/
theorem roundHalfAway_le_iff {q : ℚ} {n : Int} :
    roundHalfAway q ≤ n ↔ q ≤ n + 1 / 2 ∧ (0 ≤ n → q ≠ n + 1 / 2) := by
  unfold roundHalfAway
  by_cases nonneg : 0 ≤ q
  · rw [if_pos nonneg, Int.floor_le_iff]
    constructor
    · intro below
      exact ⟨by linarith, fun _ equal => by linarith⟩
    · rintro ⟨below, differ⟩
      have positive : (-1 : ℚ) < n := by linarith
      have natural : 0 ≤ n := by
        have : -1 < n := by exact_mod_cast positive
        omega
      have strict := lt_of_le_of_ne below (differ natural)
      linarith
  · rw [if_neg nonneg, Int.ceil_le]
    constructor
    · intro below
      refine ⟨by linarith, fun natural equal => ?_⟩
      have : (0 : ℚ) ≤ n := by exact_mod_cast natural
      linarith
    · rintro ⟨below, -⟩
      linarith

/-- The half below an integer is rounded up to it only above zero. -/
theorem le_roundHalfAway_iff {q : ℚ} {n : Int} :
    n ≤ roundHalfAway q ↔ n - 1 / 2 ≤ q ∧ (n ≤ 0 → q ≠ n - 1 / 2) := by
  unfold roundHalfAway
  by_cases nonneg : 0 ≤ q
  · rw [if_pos nonneg, Int.le_floor]
    constructor
    · intro above
      refine ⟨by linarith, fun least equal => ?_⟩
      have : (n : ℚ) ≤ 0 := by exact_mod_cast least
      linarith
    · rintro ⟨above, -⟩
      linarith
  · rw [if_neg nonneg, Int.le_ceil_iff]
    constructor
    · intro above
      exact ⟨by linarith, fun _ equal => by linarith⟩
    · rintro ⟨above, differ⟩
      have negative : (n : ℚ) < 1 := by linarith
      have least : n ≤ 0 := by
        have : n < 1 := by exact_mod_cast negative
        omega
      have strict := lt_of_le_of_ne above (differ least).symm
      linarith

end Machine
