import HyprPilot.Base.Collect
import HyprPilot.Base.Int32

/-!
# Arithmetic that can fault

A program over `i32` is written once, over what becomes of the results of its operations. A release
build wraps a plain sum and clamps a saturating one, a build with overflow checks stops at a plain
sum out of the range, and `exact` stops at every result out of the range, so that its results are
the exact numbers. Where a stricter arithmetic ends without a fault the looser ones end alike.
-/

namespace Machine

inductive Fault where
  | overflow
  | outOfBounds
  deriving DecidableEq

/-- What becomes of the exact result of a plain and of a saturating operation. -/
structure Arithmetic where
  plain : Int → Except Fault Int
  saturating : Int → Except Fault Int

def fitted (n : Int) : Except Fault Int := if InI32 n then .ok n else .error .overflow

namespace Arithmetic

def release : Arithmetic := ⟨fun n => .ok (wrap32 n), fun n => .ok (sat32 n)⟩

def checked : Arithmetic := ⟨fitted, fun n => .ok (sat32 n)⟩

def exact : Arithmetic := ⟨fitted, fitted⟩

end Arithmetic

theorem fitted_eq_ok {n m : Int} : fitted n = .ok m ↔ InI32 n ∧ m = n := by
  unfold fitted
  by_cases inside : InI32 n
  · rw [if_pos inside]
    exact ⟨fun same => ⟨inside, (Except.ok.inj same).symm⟩, fun same => by rw [same.2]⟩
  · rw [if_neg inside]
    exact ⟨nofun, fun same => absurd same.1 inside⟩

theorem fitted_bind_ends_iff {α : Type} {n : Int} {f : Int → Except Fault α} :
    (∃ a, (fitted n >>= f) = .ok a) ↔ InI32 n ∧ ∃ a, f n = .ok a := by
  unfold fitted
  by_cases inside : InI32 n
  · rw [if_pos inside]
    exact (and_iff_right inside).symm
  · rw [if_neg inside]
    exact iff_of_false nofun fun ends => inside ends.1

theorem sat32_sat32 (n : Int) : sat32 (sat32 n) = sat32 n := sat32_of_in (inI32_sat32 n)

/-! ### Indexing -/

def index {α : Type} (xs : List α) (i : Nat) : Except Fault α :=
  match xs[i]? with
  | some x => .ok x
  | none => .error .outOfBounds

/-- `xs[i..i + n]`. -/
def slice {α : Type} (xs : List α) (i n : Nat) : Except Fault (List α) :=
  if i + n ≤ xs.length then .ok ((xs.drop i).take n) else .error .outOfBounds

theorem index_eq_ok {α : Type} {xs : List α} {i : Nat} {x : α} : index xs i = .ok x ↔ xs[i]? = some x := by
  unfold index
  cases xs[i]? with
  | none => exact ⟨nofun, nofun⟩
  | some y => simp

/-! ### Faults -/

section Faults

variable {α β : Type} {P : Fault → Prop}

/-- The computation ends or stops at one of these faults. -/
def Faults (P : Fault → Prop) (x : Except Fault α) : Prop := ∀ e, x = .error e → P e

theorem faults_ok (a : α) : Faults P (.ok a) := nofun

theorem Faults.bind {x : Except Fault α} {f : α → Except Fault β} (first : Faults P x)
    (rest : ∀ a, x = .ok a → Faults P (f a)) : Faults P (x >>= f) := by
  cases x with
  | error e => exact fun e' stopped => first e' (by cases stopped; rfl)
  | ok a => exact rest a rfl

theorem Faults.ends {x : Except Fault α} (never : Faults (fun _ => False) x) : ∃ a, x = .ok a := by
  cases x with
  | error e => exact (never e rfl).elim
  | ok a => exact ⟨a, rfl⟩

theorem bind_ok_ends_iff {x : Except Fault α} {f : α → β} :
    (∃ b, (x >>= fun a => .ok (f a)) = .ok b) ↔ ∃ a, x = .ok a := by
  cases x with
  | error e => exact iff_of_false nofun nofun
  | ok a => exact iff_of_true ⟨f a, rfl⟩ ⟨a, rfl⟩

theorem faults_foldlM {f : β → α → Except Fault β} (step : ∀ b a, Faults P (f b a)) (xs : List α)
    (b : β) : Faults P (xs.foldlM f b) := by
  induction xs generalizing b with
  | nil => exact faults_ok b
  | cons x xs ih => exact (step b x).bind fun b' _ => ih b'

theorem faults_collect {f : Nat → α → Except Fault β} (step : ∀ i a, Faults P (f i a)) (i : Nat)
    (xs : List α) : Faults P (Collect.collect f i xs) := by
  intro e stopped
  obtain ⟨k, ⟨x, -, fails⟩, -⟩ := Collect.collect_error_iff.mp stopped
  exact step (i + k) x e fails

theorem Faults.ends_iff {x : Except Fault α} {e : Fault} (only : Faults (· = e) x) :
    x ≠ .error e ↔ ∃ a, x = .ok a := by
  cases x with
  | error e' => simp [only e' rfl]
  | ok a => simp

theorem faults_index {xs : List α} {i : Nat} (inside : i < xs.length) : Faults P (index xs i) := by
  rw [index, List.getElem?_eq_getElem inside]
  exact faults_ok _

theorem faults_fitted (n : Int) : Faults (· = .overflow) (fitted n) := by
  unfold fitted
  split
  · exact faults_ok n
  · rintro e ⟨⟩
    rfl

end Faults

/-! ### Stricter and looser -/

section Below

variable {ε α β : Type}

/-- What ends without an error ends so on the other side, with the same result. -/
def Below (x y : Except ε α) : Prop := ∀ a, x = .ok a → y = .ok a

theorem Below.refl (x : Except ε α) : Below x x := fun _ ended => ended

theorem Below.bind {x y : Except ε α} {f g : α → Except ε β} (first : Below x y)
    (rest : ∀ a, Below (f a) (g a)) : Below (x >>= f) (y >>= g) := by
  intro b ended
  cases x with
  | error e => cases ended
  | ok a =>
    rw [first a rfl]
    exact rest a b ended

theorem foldlM_below {f g : β → α → Except ε β} (step : ∀ b a, Below (f b a) (g b a)) (xs : List α)
    (b : β) : Below (xs.foldlM f b) (xs.foldlM g b) := by
  induction xs generalizing b with
  | nil => exact .refl _
  | cons x xs ih => exact (step b x).bind ih

end Below

structure Arithmetic.Below (ar looser : Arithmetic) : Prop where
  plain : ∀ n, Machine.Below (ar.plain n) (looser.plain n)
  saturating : ∀ n, Machine.Below (ar.saturating n) (looser.saturating n)

theorem below_fitted_wrap (n : Int) : Below (fitted n) (.ok (wrap32 n)) := by
  intro m ended
  obtain ⟨inside, rfl⟩ := fitted_eq_ok.mp ended
  rw [wrap32_of_in inside]

theorem below_fitted_sat (n : Int) : Below (fitted n) (.ok (sat32 n)) := by
  intro m ended
  obtain ⟨inside, rfl⟩ := fitted_eq_ok.mp ended
  rw [sat32_of_in inside]

theorem checked_below_release : Arithmetic.checked.Below .release :=
  ⟨below_fitted_wrap, fun _ => .refl _⟩

theorem exact_below_checked : Arithmetic.exact.Below .checked := ⟨fun _ => .refl _, below_fitted_sat⟩

/-- The results of plain operations are exact; `edge` gives those of saturating ones. -/
structure Arithmetic.Keeps (ar : Arithmetic) (edge : Int → Int) : Prop where
  plain : ∀ {n m}, ar.plain n = .ok m → InI32 n ∧ m = n
  saturating : ∀ {n m}, ar.saturating n = .ok m → m = edge n
  edge : ∀ n, edge (edge n) = edge n

theorem checked_keeps : Arithmetic.checked.Keeps sat32 where
  plain := fitted_eq_ok.mp
  saturating ended := (Except.ok.inj ended).symm
  edge := sat32_sat32

theorem exact_keeps : Arithmetic.exact.Keeps id where
  plain := fitted_eq_ok.mp
  saturating ended := (fitted_eq_ok.mp ended).2
  edge _ := rfl

end Machine
