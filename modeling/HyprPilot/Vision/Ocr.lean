import HyprPilot.Vision.Geometry

/-!
# Recognised words

The words of an image with their boxes, and the search for a query in them: a run of consecutive
words on one row whose texts are the query's tokens.
-/

namespace HyprPilot

inductive Psm where
  | auto | singleBlock | singleLine | sparseText
  deriving DecidableEq

structure Word where
  text : String
  bbox : BBox
  confidence : Int
  deriving DecidableEq

structure TextMatch where
  text : String
  bbox : BBox
  confidence : Int
  deriving DecidableEq

def sameRow (a b : BBox) : Bool :=
  a.y < Machine.sat32 (b.y + b.h) ∧ b.y < Machine.sat32 (a.y + a.h)

def normalize (caseSensitive : Bool) (s : String) : String :=
  if caseSensitive then s else Text.asciiLower s

/-- The words at the front are the wanted ones, each on the row of the one before it. -/
def runMatches (caseSensitive : Bool) : Option BBox → List String → List Word → Bool
  | _, [], _ => true
  | _, _ :: _, [] => false
  | previous, want :: wants, word :: words =>
    normalize caseSensitive word.text = want &&
      (match previous with
        | none => true
        | some box => sameRow box word.bbox) &&
      runMatches caseSensitive (some word.bbox) wants words

def mergeRun (first : Word) (rest : List Word) : TextMatch where
  text := Text.joinWith " " ((first :: rest).map (·.text))
  bbox := rest.foldl (fun box w => box.union w.bbox) first.bbox
  confidence := rest.foldl (fun least w => min least w.confidence) first.confidence

def runsFrom (caseSensitive : Bool) (want : List String) : List Word → List TextMatch
  | [] => []
  | first :: words =>
    let later := runsFrom caseSensitive want words
    if runMatches caseSensitive none want (first :: words) then
      mergeRun first (words.take (want.length - 1)) :: later
    else later

def findWordRuns (words : List Word) (query : String) (caseSensitive : Bool) : List TextMatch :=
  let want := (Text.splitWhitespace query).map (normalize caseSensitive)
  if want.isEmpty then [] else runsFrom caseSensitive want words

theorem mergeRun_inI32 {first : Word} {rest : List Word} (start : first.bbox.InI32)
    (boxes : ∀ w ∈ rest, w.bbox.InI32) : (mergeRun first rest).bbox.InI32 := by
  have fold (box : BBox) (fits : box.InI32) :
      (rest.foldl (fun box w => box.union w.bbox) box).InI32 := by
    induction rest generalizing box with
    | nil => exact fits
    | cons w rest ih =>
      rw [List.forall_mem_cons] at boxes
      exact ih boxes.2 _ (fits.union boxes.1)
  exact fold _ start

theorem runsFrom_inI32 {caseSensitive : Bool} {want : List String} {words : List Word}
    (boxes : ∀ w ∈ words, w.bbox.InI32) :
    ∀ m ∈ runsFrom caseSensitive want words, m.bbox.InI32 := by
  induction words with
  | nil => simp [runsFrom]
  | cons first words ih =>
    rw [List.forall_mem_cons] at boxes
    have later := ih boxes.2
    unfold runsFrom
    split
    · refine List.forall_mem_cons.mpr ⟨mergeRun_inI32 boxes.1 fun w member => ?_, later⟩
      exact boxes.2 w (List.mem_of_mem_take member)
    · exact later

theorem findWordRuns_inI32 {words : List Word} {query : String} {caseSensitive : Bool}
    (boxes : ∀ w ∈ words, w.bbox.InI32) :
    ∀ m ∈ findWordRuns words query caseSensitive, m.bbox.InI32 := by
  unfold findWordRuns
  dsimp only
  split
  · simp
  · exact runsFrom_inI32 boxes

/-! ### How many runs there are -/

section Runs

variable {caseSensitive : Bool} {want : List String}

theorem runMatches_length {previous : Option BBox} {words : List Word}
    (run : runMatches caseSensitive previous want words = true) : want.length ≤ words.length := by
  induction want generalizing previous words with
  | nil => exact Nat.zero_le _
  | cons w wants ih =>
    cases words with
    | nil => cases run
    | cons word words =>
      simp only [runMatches, Bool.and_eq_true] at run
      exact Nat.succ_le_succ (ih run.2)

theorem length_runsFrom_le (words : List Word) :
    (runsFrom caseSensitive want words).length ≤ words.length + 1 - want.length := by
  induction words with
  | nil => exact Nat.zero_le _
  | cons first words ih =>
    unfold runsFrom
    split
    · rename_i run
      have long := runMatches_length run
      simp only [List.length_cons] at long ⊢
      omega
    · simp only [List.length_cons]
      omega

theorem length_runsFrom_append (before words : List Word) :
    (runsFrom caseSensitive want words).length ≤
      (runsFrom caseSensitive want (before ++ words)).length := by
  induction before with
  | nil => exact Nat.le_refl _
  | cons first before ih =>
    refine ih.trans ?_
    rw [List.cons_append, runsFrom]
    split
    · exact Nat.le_succ _
    · exact Nat.le_refl _

def wordAt (text : String) : Word := ⟨text, ⟨0, 0, 1, 1⟩, 100⟩

theorem runMatches_wordAt (tokens : List String) (rest : List Word) (previous : Option BBox)
    (row : ∀ box, previous = some box → sameRow box ⟨0, 0, 1, 1⟩ = true) :
    runMatches caseSensitive previous (tokens.map (normalize caseSensitive))
      (tokens.map wordAt ++ rest) = true := by
  induction tokens generalizing previous with
  | nil => simp [runMatches]
  | cons token tokens ih =>
    have later := ih (some ⟨0, 0, 1, 1⟩) fun box equal => by
      cases equal
      decide
    simp only [List.map_cons, List.cons_append, runMatches, Bool.and_eq_true, decide_eq_true_eq]
    refine ⟨⟨rfl, ?_⟩, later⟩
    cases previous with
    | none => rfl
    | some box => exact row box rfl

/-- The tokens, read so many times one after the other, hold so many runs. -/
theorem le_length_runsFrom {tokens : List String} (nonempty : tokens ≠ []) (n : Nat) :
    n ≤ (runsFrom caseSensitive (tokens.map (normalize caseSensitive))
      (List.replicate n (tokens.map wordAt)).flatten).length := by
  induction n with
  | zero => exact Nat.zero_le _
  | succ n ih =>
    obtain ⟨token, tokens, rfl⟩ := List.exists_cons_of_ne_nil nonempty
    have run : runMatches caseSensitive none ((token :: tokens).map (normalize caseSensitive))
        (wordAt token :: (tokens.map wordAt ++
          (List.replicate n ((token :: tokens).map wordAt)).flatten)) = true :=
      runMatches_wordAt (token :: tokens) _ none (by simp)
    show n + 1 ≤ (runsFrom _ _ (wordAt token :: (tokens.map wordAt ++ _))).length
    rw [runsFrom, if_pos run, List.length_cons]
    exact Nat.succ_le_succ (ih.trans (length_runsFrom_append _ _))

end Runs

end HyprPilot
