import Mathlib.Data.List.Basic
import Mathlib.Tactic.Common

/-!
# Collecting results up to the first error

`collect f i xs` applies `f` to each item and its index, from `i` on, and stops at the first error.
It succeeds when every item does, with the results in order; its error is that of the first item
that fails, with the index of that item.
-/

namespace Collect

variable {α β ε : Type} {f : Nat → α → Except ε β}

def collect (f : Nat → α → Except ε β) : Nat → List α → Except ε (List β)
  | _, [] => .ok []
  | i, x :: xs => do
    let y ← f i x
    let ys ← collect f (i + 1) xs
    return y :: ys

theorem bind_ok {x : Except ε α} {f : α → Except ε β} {b : β} (ended : x >>= f = .ok b) :
    ∃ a, x = .ok a ∧ f a = .ok b := by
  cases x with
  | ok a => exact ⟨a, rfl, ended⟩
  | error e => cases ended

theorem mapError_ok {ε' : Type} {result : Except ε α} {f : ε → ε'} {a : α} :
    result.mapError f = .ok a ↔ result = .ok a := by
  cases result <;> simp [Except.mapError]

theorem mapError_error {ε' : Type} {result : Except ε α} {f : ε → ε'} {e' : ε'} :
    result.mapError f = .error e' ↔ ∃ e, result = .error e ∧ f e = e' := by
  cases result <;> simp [Except.mapError]

theorem collect_cons_ok {i : Nat} {x : α} {xs : List α} {y : β} (first : f i x = .ok y) :
    collect f i (x :: xs) = (collect f (i + 1) xs).map (y :: ·) := by
  rw [collect, first]
  cases collect f (i + 1) xs <;> rfl

theorem collect_cons_error {i : Nat} {x : α} {xs : List α} {e : ε} (first : f i x = .error e) :
    collect f i (x :: xs) = .error e := by
  rw [collect, first]
  rfl

/-- The item at `k` fails, and no item before it does. -/
def FailsAt (f : Nat → α → Except ε β) (i : Nat) (xs : List α) (k : Nat) (e : ε) : Prop :=
  (∃ x, xs[k]? = some x ∧ f (i + k) x = .error e) ∧
    ∀ j < k, ∀ x, xs[j]? = some x → ∃ y, f (i + j) x = .ok y

theorem failsAt_zero {i : Nat} {x : α} {xs : List α} {e : ε} :
    FailsAt f i (x :: xs) 0 e ↔ f i x = .error e := by
  simp [FailsAt]

theorem failsAt_succ {i k : Nat} {x : α} {xs : List α} {e : ε} :
    FailsAt f i (x :: xs) (k + 1) e ↔ (∃ y, f i x = .ok y) ∧ FailsAt f (i + 1) xs k e := by
  have shift (j : Nat) : i + 1 + j = i + (j + 1) := by omega
  unfold FailsAt
  simp only [List.getElem?_cons_succ, shift]
  constructor
  · rintro ⟨fails, before⟩
    refine ⟨before 0 (Nat.succ_pos k) x rfl, fails, fun j early y located => ?_⟩
    exact before (j + 1) (by omega) y located
  · rintro ⟨first, fails, before⟩
    refine ⟨fails, fun j early y located => ?_⟩
    cases j with
    | zero =>
      obtain rfl := Option.some.inj located
      exact first
    | succ j => exact before j (by omega) y located

theorem collect_error_iff {i : Nat} {xs : List α} {e : ε} :
    collect f i xs = .error e ↔ ∃ k, FailsAt f i xs k e := by
  induction xs generalizing i with
  | nil => simp [collect, FailsAt]
  | cons x xs ih =>
    cases first : f i x with
    | error e' =>
      rw [collect_cons_error first]
      constructor
      · rintro ⟨⟩
        exact ⟨0, failsAt_zero.mpr first⟩
      · rintro ⟨k, fails⟩
        cases k with
        | zero =>
          have same := first.symm.trans (failsAt_zero.mp fails)
          rw [Except.error.inj same]
        | succ k =>
          obtain ⟨y, passed⟩ := (failsAt_succ.mp fails).1
          rw [first] at passed
          cases passed
    | ok y =>
      have later : (collect f (i + 1) xs).map (y :: ·) = .error e ↔
          collect f (i + 1) xs = .error e := by
        cases collect f (i + 1) xs <;> simp [Except.map]
      rw [collect_cons_ok first, later, ih]
      constructor
      · rintro ⟨k, fails⟩
        exact ⟨k + 1, failsAt_succ.mpr ⟨⟨y, first⟩, fails⟩⟩
      · rintro ⟨k, fails⟩
        cases k with
        | zero =>
          rw [failsAt_zero, first] at fails
          cases fails
        | succ k => exact ⟨k, (failsAt_succ.mp fails).2⟩

theorem collect_ok_iff {i : Nat} {xs : List α} {ys : List β} :
    collect f i xs = .ok ys ↔ xs.mapIdx (fun k x => f (i + k) x) = ys.map .ok := by
  induction xs generalizing i ys with
  | nil => cases ys <;> simp [collect]
  | cons x xs ih =>
    have shift : (fun k x => f (i + (k + 1)) x) = fun k x => f (i + 1 + k) x := by
      funext k x
      congr 1
      omega
    rw [List.mapIdx_cons, shift]
    cases first : f i x with
    | error e =>
      rw [collect_cons_error first]
      cases ys <;> simp
    | ok y =>
      rw [collect_cons_ok first]
      cases ys with
      | nil => cases collect f (i + 1) xs <;> simp [Except.map]
      | cons z zs =>
        rw [List.map_cons, List.cons.injEq, ← ih]
        cases collect f (i + 1) xs <;> simp [Except.map]

theorem length_collect {i : Nat} {xs : List α} {ys : List β} (collected : collect f i xs = .ok ys) :
    ys.length = xs.length := by
  have lengths := congrArg List.length (collect_ok_iff.mp collected)
  rw [List.length_mapIdx, List.length_map] at lengths
  exact lengths.symm

theorem collect_at {i k : Nat} {xs : List α} {ys : List β} {x : α}
    (collected : collect f i xs = .ok ys) (located : xs[k]? = some x) :
    ∃ y, ys[k]? = some y ∧ f (i + k) x = .ok y := by
  have outcomes := congrArg (·[k]?) (collect_ok_iff.mp collected)
  rw [List.getElem?_mapIdx, located, List.getElem?_map] at outcomes
  cases passed : ys[k]? with
  | none => simp [passed] at outcomes
  | some y =>
    rw [passed] at outcomes
    exact ⟨y, rfl, Option.some.inj outcomes⟩

theorem collect_ok_exists {i : Nat} {xs : List α} :
    (∃ ys, collect f i xs = .ok ys) ↔ ∀ k x, xs[k]? = some x → ∃ y, f (i + k) x = .ok y := by
  constructor
  · rintro ⟨ys, collected⟩ k x located
    obtain ⟨y, _, passed⟩ := collect_at collected located
    exact ⟨y, passed⟩
  · intro passed
    cases collected : collect f i xs with
    | ok ys => exact ⟨ys, rfl⟩
    | error e =>
      obtain ⟨k, ⟨x, located, fails⟩, _⟩ := collect_error_iff.mp collected
      obtain ⟨y, passes⟩ := passed k x located
      rw [fails] at passes
      cases passes

theorem collect_each {g : α → Except ε β} {i : Nat} {xs : List α} :
    (∃ ys, collect (fun _ => g) i xs = .ok ys) ↔ ∀ x ∈ xs, ∃ y, g x = .ok y := by
  rw [collect_ok_exists]
  constructor
  · intro passed x member
    obtain ⟨k, located⟩ := List.mem_iff_getElem?.mp member
    exact passed k x located
  · exact fun passed k x located => passed x (List.mem_of_getElem? located)

theorem collect_map {g : α → β} (total : ∀ i x, f i x = .ok (g x)) (i : Nat) (xs : List α) :
    collect f i xs = .ok (xs.map g) := by
  induction xs generalizing i with
  | nil => rfl
  | cons x xs ih =>
    rw [collect_cons_ok (total i x), ih]
    rfl

end Collect
