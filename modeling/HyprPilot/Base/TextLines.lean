import HyprPilot.Base.Pieces

/-!
# Lines of a text

`str::lines` and the pieces of a line under one more character at its end.
-/

namespace Text

/-! ### White lines -/

theorem trim_isEmpty_iff {s : String} : (trim s).isEmpty = true ↔ ∀ c ∈ s.toList, isWhite c = true := by
  rw [trim, String.isEmpty_iff, String.ofList_eq_empty_iff, trimChars_eq, List.rdropWhile_eq_nil_iff]
  constructor
  · intro white c member
    rw [← List.takeWhile_append_dropWhile (p := isWhite) (l := s.toList), List.mem_append] at member
    rcases member with front | back
    · exact List.mem_takeWhile_imp front
    · exact white c back
  · intro white c member
    exact white c ((List.dropWhile_suffix isWhite).subset member)

/-! ### Line ends -/

/-- A carriage return before the newline belongs to the line's end. -/
def chomp (s : String) : String := (stripSuffix "\r" s).getD s

/-- The lines of the pieces between newlines: nothing ends the last piece. -/
def ended : List String → List String
  | [] => []
  | [last] => if last.isEmpty then [] else [last]
  | piece :: rest => chomp piece :: ended rest

/-- `str::lines`. -/
def lines (s : String) : List String := ended (splitOn '\n' s)

example : lines "a\r\n\nb\r" = ["a", "", "b\r"] := by decide

theorem stripSuffix_eq_some {suf s rest : String} :
    stripSuffix suf s = some rest ↔ s = rest ++ suf := by
  rw [stripSuffix, Option.map_eq_some_iff]
  constructor
  · rintro ⟨cs, cut, rfl⟩
    apply String.toList_inj.mp
    have whole := List.isPrefixOf?_eq_some_iff_append_eq.mp cut
    rw [String.toList_append, String.toList_ofList, ← List.reverse_inj, List.reverse_append,
      List.reverse_reverse]
    exact whole.symm
  · rintro rfl
    refine ⟨rest.toList.reverse, List.isPrefixOf?_eq_some_iff_append_eq.mpr ?_, ?_⟩
    · rw [String.toList_append, List.reverse_append]
    · rw [List.reverse_reverse, String.ofList_toList]

theorem chomp_cases (s : String) : chomp s = s ∧ (¬∃ t, s = t ++ "\r") ∨ s = chomp s ++ "\r" := by
  cases cut : stripSuffix "\r" s with
  | none =>
    refine Or.inl ⟨by rw [chomp, cut]; rfl, ?_⟩
    rintro ⟨t, rfl⟩
    rw [stripSuffix_eq_some.mpr rfl] at cut
    cases cut
  | some rest =>
    refine Or.inr ?_
    rw [chomp, cut]
    exact stripSuffix_eq_some.mp cut

theorem mem_of_mem_chomp {s : String} {c : Char} (member : c ∈ (chomp s).toList) : c ∈ s.toList := by
  rcases chomp_cases s with ⟨same, -⟩ | returned
  · rwa [same] at member
  · rw [returned, String.toList_append]
    exact List.mem_append_left _ member

/-! ### One more character -/

theorem joinWith_concat_append (sep last more : String) (front : List String) :
    joinWith sep (front ++ [last ++ more]) = joinWith sep (front ++ [last]) ++ more := by
  induction front with
  | nil => rfl
  | cons piece rest ih =>
    rw [List.cons_append, List.cons_append, joinWith_cons _ _ (by simp), joinWith_cons _ _ (by simp),
      ih, ← String.append_assoc]

/-- Only the last piece grows. -/
theorem splitOn_concat {sep c : Char} (other : sep ≠ c) (s : String) :
    ∃ front last, splitOn sep s = front ++ [last] ∧
      splitOn sep (s ++ String.singleton c) = front ++ [last ++ String.singleton c] := by
  have inhabited : splitOn sep s ≠ [] := by
    rw [splitOn, List.splitOn_eq_splitOnP]
    exact List.map_eq_nil_iff.not.mpr (List.splitOnP_ne_nil _ _)
  obtain ⟨front, last, shape⟩ : ∃ front last, splitOn sep s = front ++ [last] :=
    ⟨_, _, (List.dropLast_concat_getLast inhabited).symm⟩
  have clear : ∀ piece ∈ front ++ [last], sep ∉ piece.toList := fun piece member =>
    absent_of_mem_splitOn (shape ▸ member)
  rw [List.forall_mem_append] at clear
  have lastClear : sep ∉ (last ++ String.singleton c).toList := by
    have inner := clear.2 last (List.mem_singleton_self _)
    simp [inner, other]
  refine ⟨front, last, shape, ?_⟩
  have whole := joinWith_splitOn sep s
  rw [shape] at whole
  have grown := splitOn_joinWith_concat clear.1 (last ++ String.singleton c)
  rw [joinWith_concat_append, whole, splitOn_of_absent lastClear] at grown
  exact grown

end Text
