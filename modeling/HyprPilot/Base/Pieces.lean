import HyprPilot.Base.Text
import Mathlib.Data.List.DropRight

/-!
# Pieces of a text

Texts without white space at either end, which `trim` leaves alone, and the pieces that splitting
at a separator gives back.
-/

namespace Text

/-! ### Trimming -/

def TrimmedChars (cs : List Char) : Prop :=
  (∀ c ∈ cs.head?, isWhite c = false) ∧ ∀ c ∈ cs.getLast?, isWhite c = false

def Trimmed (s : String) : Prop := TrimmedChars s.toList

theorem trimChars_eq (cs : List Char) : trimChars cs = (cs.dropWhile isWhite).rdropWhile isWhite := rfl

theorem head_dropWhile {cs : List Char} {c : Char} (first : (cs.dropWhile isWhite).head? = some c) :
    isWhite c = false := by
  have dark := List.head?_dropWhile_not isWhite cs
  rw [first] at dark
  exact dark

theorem trimmed_trimChars (cs : List Char) : TrimmedChars (trimChars cs) := by
  rw [trimChars_eq]
  constructor
  · intro c first
    obtain ⟨rest, whole⟩ := List.rdropWhile_prefix isWhite (cs.dropWhile isWhite)
    have leads : (cs.dropWhile isWhite).head? = some c := by
      rw [← whole, List.head?_append, first]
      rfl
    exact head_dropWhile leads
  · intro c last
    rw [List.rdropWhile, List.getLast?_reverse] at last
    exact head_dropWhile last

theorem trimChars_of_trimmed {cs : List Char} (trimmed : TrimmedChars cs) : trimChars cs = cs := by
  have front : cs.dropWhile isWhite = cs := by
    cases cs with
    | nil => rfl
    | cons c rest =>
      have dark : isWhite c = false := trimmed.1 c rfl
      rw [List.dropWhile_cons_of_neg (by rw [dark]; exact Bool.false_ne_true)]
  rw [trimChars_eq, front, List.rdropWhile_eq_self_iff]
  intro inhabited
  have dark := trimmed.2 _ (List.getLast?_eq_some_getLast inhabited)
  rw [dark]
  exact Bool.false_ne_true

theorem trim_of_trimmed {s : String} (trimmed : Trimmed s) : trim s = s := by
  rw [trim, trimChars_of_trimmed trimmed, String.ofList_toList]

theorem trimmed_trim (s : String) : Trimmed (trim s) := by
  rw [Trimmed, trim, String.toList_ofList]
  exact trimmed_trimChars _

theorem Trimmed.append {s t : String} (before : Trimmed s) (after : Trimmed t) : Trimmed (s ++ t) := by
  rw [Trimmed, TrimmedChars, String.toList_append, List.head?_append, List.getLast?_append]
  constructor
  · intro c first
    rcases Option.or_eq_some_iff.mp first with inS | inT
    · exact before.1 c inS
    · exact after.1 c inT.2
  · intro c last
    rcases Option.or_eq_some_iff.mp last with inT | inS
    · exact after.2 c inT
    · exact before.2 c inS.2

theorem mem_of_mem_trim {s : String} {c : Char} (member : c ∈ (trim s).toList) : c ∈ s.toList := by
  rw [trim, String.toList_ofList, trimChars_eq] at member
  have inner := (List.rdropWhile_prefix isWhite _).subset member
  exact (List.dropWhile_suffix isWhite).subset inner

/-! ### Prefixes -/

theorem stripPrefix_eq_some {pre s rest : String} :
    stripPrefix pre s = some rest ↔ s = pre ++ rest := by
  have chars : pre.toList.isPrefixOf? s.toList = some rest.toList ↔ pre.toList ++ rest.toList = s.toList :=
    List.isPrefixOf?_eq_some_iff_append_eq
  rw [stripPrefix, Option.map_eq_some_iff]
  constructor
  · rintro ⟨cs, cut, rfl⟩
    apply String.toList_inj.mp
    rw [String.toList_append, String.toList_ofList]
    exact (List.isPrefixOf?_eq_some_iff_append_eq.mp cut).symm
  · rintro rfl
    exact ⟨rest.toList, chars.mpr (String.toList_append).symm, String.ofList_toList⟩

theorem stripPrefix_append (pre s : String) : stripPrefix pre (pre ++ s) = some s :=
  stripPrefix_eq_some.mpr rfl

theorem startsWith_iff {pre s : String} : startsWith pre s = true ↔ ∃ rest, s = pre ++ rest := by
  rw [startsWith, List.isPrefixOf_iff_prefix]
  constructor
  · rintro ⟨cs, whole⟩
    refine ⟨String.ofList cs, String.toList_inj.mp ?_⟩
    rw [String.toList_append, String.toList_ofList, whole]
  · rintro ⟨rest, rfl⟩
    rw [String.toList_append]
    exact List.prefix_append _ _

theorem startsWith_append (pre s : String) : startsWith pre (pre ++ s) = true :=
  startsWith_iff.mpr ⟨s, rfl⟩

/-! ### Splitting at every separator -/

theorem splitOn_of_absent {sep : Char} {s : String} (absent : sep ∉ s.toList) :
    splitOn sep s = [s] := by
  rw [splitOn, List.splitOn_eq_splitOnP, List.splitOnP_eq_singleton (clear_of_absent absent),
    List.map_singleton, String.ofList_toList]

theorem clear_of_mem_splitOnP {p : Char → Bool} {cs piece : List Char}
    (member : piece ∈ cs.splitOnP p) : ∀ c ∈ piece, p c = false := by
  induction cs generalizing piece with
  | nil =>
    rw [List.splitOnP_nil, List.mem_singleton] at member
    simp [member]
  | cons c rest ih =>
    obtain ⟨head, tail, shape⟩ := List.exists_cons_of_ne_nil (List.splitOnP_ne_nil p rest)
    rw [List.splitOnP_cons_eq_if_modifyHead, shape] at member
    split at member
    · rcases List.mem_cons.mp member with blank | later
      · simp [blank]
      · exact ih (shape ▸ later)
    · rename_i clear
      rcases List.mem_cons.mp member with first | later
      · rw [first]
        have others := ih (shape ▸ List.mem_cons_self)
        exact List.forall_mem_cons.mpr ⟨Bool.not_eq_true _ ▸ clear, others⟩
      · exact ih (shape ▸ List.mem_cons_of_mem _ later)

theorem absent_of_mem_splitOn {sep : Char} {s piece : String} (member : piece ∈ splitOn sep s) :
    sep ∉ piece.toList := by
  obtain ⟨chars, cut, rfl⟩ := List.mem_map.mp member
  rw [List.splitOn_eq_splitOnP] at cut
  rw [String.toList_ofList]
  intro inside
  have clear := clear_of_mem_splitOnP cut sep inside
  rw [beq_self_eq_true] at clear
  cases clear

theorem mem_joinWith {sep : String} {pieces : List String} {c : Char}
    (member : c ∈ (joinWith sep pieces).toList) : c ∈ sep.toList ∨ ∃ piece ∈ pieces, c ∈ piece.toList := by
  induction pieces with
  | nil => simp [joinWith] at member
  | cons piece rest ih =>
    cases rest with
    | nil => exact Or.inr ⟨piece, List.mem_singleton_self _, member⟩
    | cons second more =>
      rw [joinWith_cons sep piece (by simp), String.toList_append, String.toList_append,
        List.mem_append, List.mem_append] at member
      rcases member with (inPiece | inSep) | later
      · exact Or.inr ⟨piece, List.mem_cons_self, inPiece⟩
      · exact Or.inl inSep
      · rcases ih later with inSep | ⟨other, listed, inOther⟩
        · exact Or.inl inSep
        · exact Or.inr ⟨other, List.mem_cons_of_mem _ listed, inOther⟩

theorem splitOn_joinWith_concat {sep : Char} {front : List String} (clear : ∀ piece ∈ front, sep ∉ piece.toList)
    (last : String) : splitOn sep (joinWith (String.singleton sep) (front ++ [last])) =
      front ++ splitOn sep last := by
  induction front with
  | nil => rfl
  | cons piece rest ih =>
    rw [List.forall_mem_cons] at clear
    rw [List.cons_append, joinWith_cons _ _ (by simp), splitOn_append clear.1, ih clear.2,
      List.cons_append]

theorem splitOn_joinWith {sep : Char} {pieces : List String} (inhabited : pieces ≠ [])
    (clear : ∀ piece ∈ pieces, sep ∉ piece.toList) :
    splitOn sep (joinWith (String.singleton sep) pieces) = pieces := by
  have front : ∀ piece ∈ pieces.dropLast, sep ∉ piece.toList :=
    fun piece listed => clear piece (List.dropLast_subset pieces listed)
  have whole := splitOn_joinWith_concat front (pieces.getLast inhabited)
  rw [splitOn_of_absent (clear _ (List.getLast_mem inhabited)),
    List.dropLast_concat_getLast inhabited] at whole
  exact whole

/-! ### Splitting at the first separator -/

theorem splitOnceChars_append {sep : Char} {cs : List Char} (absent : sep ∉ cs) (rest : List Char) :
    splitOnceChars [sep] (cs ++ sep :: rest) = some (cs, rest) := by
  induction cs with
  | nil => simp [splitOnceChars, List.isPrefixOf?]
  | cons c cs ih =>
    rw [List.mem_cons, not_or] at absent
    simp [splitOnceChars, List.isPrefixOf?, absent.1, ih absent.2]

theorem splitOnce_append {sep : Char} {s : String} (absent : sep ∉ s.toList) (t : String) :
    splitOnce (String.singleton sep) (s ++ String.singleton sep ++ t) = some (s, t) := by
  have shape : (s ++ String.singleton sep ++ t).toList = s.toList ++ sep :: t.toList := by simp
  rw [splitOnce, shape, String.toList_singleton, splitOnceChars_append absent, Option.map_some]
  simp only [String.ofList_toList]

theorem splitOnceChars_clear {sep : Char} {cs before after : List Char}
    (cut : splitOnceChars [sep] cs = some (before, after)) : sep ∉ before := by
  induction cs generalizing before with
  | nil => simp [splitOnceChars, List.isPrefixOf?] at cut
  | cons c cs ih =>
    rw [splitOnceChars] at cut
    by_cases same : sep = c
    · simp only [List.isPrefixOf?, same, beq_self_eq_true, if_true, Option.some_inj] at cut
      cases cut
      simp
    · simp only [List.isPrefixOf?, beq_eq_false_iff_ne.mpr same, Bool.false_eq_true, if_false] at cut
      obtain ⟨⟨inner, rest⟩, cutRest, shown⟩ := Option.map_eq_some_iff.mp cut
      cases shown
      rw [List.mem_cons, not_or]
      exact ⟨same, ih cutRest⟩

theorem splitOnce_clear {sep : Char} {s before after : String}
    (cut : splitOnce (String.singleton sep) s = some (before, after)) : sep ∉ before.toList := by
  rw [splitOnce, String.toList_singleton] at cut
  obtain ⟨⟨front, back⟩, cutChars, shown⟩ := Option.map_eq_some_iff.mp cut
  cases shown
  rw [String.toList_ofList]
  exact splitOnceChars_clear cutChars

end Text
