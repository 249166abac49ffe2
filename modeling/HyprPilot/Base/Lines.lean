import Mathlib.Data.List.Infix
import Mathlib.Tactic.Common

/-!
# Streams read by lines

A line is everything up to and with the first end mark. `cut` takes the first line off a stream; of
a stream that one line was written to, or the beginning of one, it takes that line or nothing.
-/

namespace Lines

variable {α : Type} {ends : α → Bool}

def cut (ends : α → Bool) : List α → Option (List α × List α)
  | [] => none
  | a :: rest =>
    if ends a then some ([a], rest)
    else (cut ends rest).map fun (line, rest) => (a :: line, rest)

/-- The end mark comes last and only there. -/
def IsLine (ends : α → Bool) (line : List α) : Prop :=
  ∃ body a, line = body ++ [a] ∧ ends a = true ∧ ∀ b ∈ body, ends b = false

theorem isLine_append {body : List α} {a : α} (last : ends a = true) (inner : ∀ b ∈ body, ends b = false) :
    IsLine ends (body ++ [a]) := ⟨body, a, rfl, last, inner⟩

theorem IsLine.ne_nil {line : List α} (isLine : IsLine ends line) : line ≠ [] := by
  obtain ⟨body, a, rfl, -, -⟩ := isLine
  simp

theorem cut_none {s : List α} (clear : ∀ b ∈ s, ends b = false) : cut ends s = none := by
  induction s with
  | nil => rfl
  | cons a rest ih =>
    obtain ⟨first, others⟩ := List.forall_mem_cons.mp clear
    simp [cut, first, ih others]

theorem append_of_cut {s line rest : List α} (taken : cut ends s = some (line, rest)) :
    s = line ++ rest := by
  induction s generalizing line with
  | nil => cases taken
  | cons a s ih =>
    rw [cut] at taken
    split at taken
    · cases taken
      rfl
    · obtain ⟨⟨front, back⟩, below, equal⟩ := Option.map_eq_some_iff.mp taken
      cases equal
      rw [ih below, List.cons_append]

theorem cut_append {line : List α} (isLine : IsLine ends line) (rest : List α) :
    cut ends (line ++ rest) = some (line, rest) := by
  obtain ⟨body, a, rfl, last, inner⟩ := isLine
  induction body with
  | nil => simp [cut, last]
  | cons b body ih =>
    obtain ⟨first, others⟩ := List.forall_mem_cons.mp inner
    have below := ih others
    simp only [List.append_assoc, List.cons_append, List.nil_append] at below ⊢
    simp [cut, first, below]

theorem cut_line {line : List α} (isLine : IsLine ends line) : cut ends line = some (line, []) := by
  have whole := cut_append isLine []
  rwa [List.append_nil] at whole

/-- A stream with a part of one line has all of it or no line. -/
theorem cut_prefix {line s : List α} (isLine : IsLine ends line) (part : s <+: line) :
    s = line ∨ cut ends s = none ∧ ∀ b ∈ s, ends b = false := by
  obtain ⟨body, a, rfl, last, inner⟩ := isLine
  rcases List.prefix_concat_iff.mp part with rfl | short
  · exact Or.inl rfl
  · have clear : ∀ b ∈ s, ends b = false := fun b member => inner b (short.subset member)
    exact Or.inr ⟨cut_none clear, clear⟩

theorem cut_of_prefix {line s first rest : List α} (isLine : IsLine ends line) (part : s <+: line)
    (taken : cut ends s = some (first, rest)) : s = line ∧ first = line ∧ rest = [] := by
  rcases cut_prefix isLine part with rfl | ⟨none, -⟩
  · rw [cut_line isLine] at taken
    cases taken
    exact ⟨rfl, rfl, rfl⟩
  · rw [none] at taken
    cases taken

end Lines
