import HyprPilot.Base.Checked
import HyprPilot.Base.Segments
import HyprPilot.Vision.Ocr

/-!
# The search over indices

`find_word_runs` as its loops run it: words looked up by index, a slice for each run, and every sum
and difference of a box handed to an arithmetic. The release build's search is `findWordRuns`; under
an arithmetic that keeps its results exact, the search ends with the runs of the words in order.
-/

namespace HyprPilot
open Machine

section Search

variable (ar : Arithmetic)

def BBox.sameRowIn (a b : BBox) : Except Fault Bool := do
  let bottomB ← ar.saturating (b.y + b.h)
  if a.y < bottomB then
    let bottomA ← ar.saturating (a.y + a.h)
    return decide (b.y < bottomA)
  else return false

def BBox.unionIn (a b : BBox) : Except Fault BBox := do
  let x := min a.x b.x
  let y := min a.y b.y
  let rightA ← ar.saturating (a.x + a.w)
  let rightB ← ar.saturating (b.x + b.w)
  let bottomA ← ar.saturating (a.y + a.h)
  let bottomB ← ar.saturating (b.y + b.h)
  let w ← ar.plain (max rightA rightB - x)
  let h ← ar.plain (max bottomA bottomB - y)
  return ⟨x, y, w, h⟩

variable (words : List Word) (caseSensitive : Bool)

/-- Whether the word at `i + k` stands on the row of the one before it; the first of a run need not. -/
def onRow (i : Nat) : Nat → Except Fault Bool
  | 0 => return true
  | k + 1 => do
    let previous ← index words (i + k)
    let word ← index words (i + k + 1)
    previous.bbox.sameRowIn ar word.bbox

/-- The loop over the wanted tokens from the `k`-th on, for the run that starts at `i`. -/
def okFrom (i : Nat) : Nat → List String → Except Fault Bool
  | _, [] => return true
  | k, wantTok :: want => do
    let word ← index words (i + k)
    if normalize caseSensitive word.text ≠ wantTok then return false
    else
      let row ← onRow ar words i k
      if row then okFrom i (k + 1) want else return false

def matchAt (i length : Nat) : Except Fault TextMatch := do
  let run ← slice words i length
  let first ← index run 0
  let bbox ← (run.drop 1).foldlM (fun box w => box.unionIn ar w.bbox) first.bbox
  return ⟨Text.joinWith " " (run.map (·.text)), bbox, (run.map (·.confidence)).min?.getD 0⟩

/-- The loop over the starts from `i` on. -/
def matchesFrom (want : List String) (i : Nat) : Nat → Except Fault (List TextMatch)
  | 0 => return []
  | n + 1 => do
    let ok ← okFrom ar words caseSensitive i 0 want
    if ok then
      let found ← matchAt ar words i want.length
      let later ← matchesFrom want (i + 1) n
      return found :: later
    else matchesFrom want (i + 1) n

def findWordRunsIn (query : String) : Except Fault (List TextMatch) :=
  let queryTokens := Text.splitWhitespace query
  if queryTokens.isEmpty ∨ words.length < queryTokens.length then return []
  else
    let want := queryTokens.map (normalize caseSensitive)
    let last := words.length - want.length
    matchesFrom ar words caseSensitive want 0 (last + 1)

end Search

variable {ar looser : Arithmetic} {words : List Word} {caseSensitive : Bool} {query : String} {i : Nat}

/-! ### Looser arithmetics -/

section Below

theorem sameRowIn_below (below : ar.Below looser) (a b : BBox) :
    Below (a.sameRowIn ar b) (a.sameRowIn looser b) := by
  refine (below.saturating _).bind fun bottom => ?_
  split
  · exact (below.saturating _).bind fun _ => .refl _
  · exact .refl _

theorem unionIn_below (below : ar.Below looser) (a b : BBox) :
    Below (a.unionIn ar b) (a.unionIn looser b) := by
  refine (below.saturating _).bind fun _ => ?_
  refine (below.saturating _).bind fun _ => ?_
  refine (below.saturating _).bind fun _ => ?_
  refine (below.saturating _).bind fun _ => ?_
  refine (below.plain _).bind fun _ => ?_
  exact (below.plain _).bind fun _ => .refl _

theorem onRow_below (below : ar.Below looser) (k : Nat) :
    Below (onRow ar words i k) (onRow looser words i k) := by
  cases k with
  | zero => exact .refl _
  | succ k =>
    refine (Below.refl _).bind fun _ => ?_
    exact (Below.refl _).bind fun _ => sameRowIn_below below _ _

theorem okFrom_below (below : ar.Below looser) (k : Nat) (want : List String) :
    Below (okFrom ar words caseSensitive i k want) (okFrom looser words caseSensitive i k want) := by
  induction want generalizing k with
  | nil => exact .refl _
  | cons wantTok want ih =>
    refine (Below.refl _).bind fun word => ?_
    split
    · exact .refl _
    · refine (onRow_below below k).bind fun row => ?_
      split
      · exact ih (k + 1)
      · exact .refl _

theorem matchAt_below (below : ar.Below looser) (length : Nat) :
    Below (matchAt ar words i length) (matchAt looser words i length) := by
  refine (Below.refl _).bind fun run => ?_
  refine (Below.refl _).bind fun first => ?_
  exact (foldlM_below (fun _ _ => unionIn_below below _ _) _ _).bind fun _ => .refl _

theorem matchesFrom_below (below : ar.Below looser) (want : List String) (n : Nat) :
    Below (matchesFrom ar words caseSensitive want i n) (matchesFrom looser words caseSensitive want i n) := by
  induction n generalizing i with
  | zero => exact .refl _
  | succ n ih =>
    refine (okFrom_below below 0 want).bind fun ok => ?_
    split
    · refine (matchAt_below below _).bind fun found => ?_
      exact ih.bind fun later => .refl _
    · exact ih

theorem findWordRunsIn_below (below : ar.Below looser) (query : String) :
    Below (findWordRunsIn ar words caseSensitive query) (findWordRunsIn looser words caseSensitive query) := by
  unfold findWordRunsIn
  dsimp only
  split
  · exact .refl _
  · exact matchesFrom_below below _ _

end Below

/-! ### Runs -/

/-- The `n` words from the `i`-th on. -/
def wordsAt (words : List Word) (i n : Nat) : List Word := (words.drop i).take n

/-- Two boxes overlap vertically, their lower edges as the arithmetic gives them. -/
def OnRow (edge : Int → Int) : BBox → BBox → Prop :=
  Segments.Overlap BBox.y fun b => edge (b.y + b.h)

/-- The words from the `i`-th on have the wanted texts, each on the row of the one before it. -/
structure Wanted (edge : Int → Int) (words : List Word) (caseSensitive : Bool) (want : List String)
    (i : Nat) : Prop where
  texts : (wordsAt words i want.length).map (fun w => normalize caseSensitive w.text) = want
  rows : ((wordsAt words i want.length).map Word.bbox).IsChain (OnRow edge)

theorem drop_of_getElem? {α : Type} {xs : List α} {n : Nat} {x : α} (found : xs[n]? = some x) :
    xs.drop n = x :: xs.drop (n + 1) := by
  obtain ⟨inside, rfl⟩ := List.getElem?_eq_some_iff.mp found
  exact List.drop_eq_getElem_cons inside

theorem wordsAt_succ {word : Word} (found : words[i]? = some word) (n : Nat) :
    wordsAt words i (n + 1) = word :: wordsAt words (i + 1) n := by
  rw [wordsAt, drop_of_getElem? found, List.take_succ_cons, wordsAt]

/-- In bounds the first word of the run starts the box, and the others are merged into it. -/
theorem matchAt_eq {first : Word} (found : words[i]? = some first) {n : Nat}
    (inside : i + (n + 1) ≤ words.length) :
    matchAt ar words i (n + 1) =
      ((wordsAt words (i + 1) n).foldlM (fun box w => box.unionIn ar w.bbox) first.bbox >>= fun bbox =>
        .ok ⟨Text.joinWith " " ((first :: wordsAt words (i + 1) n).map (·.text)), bbox,
          ((first :: wordsAt words (i + 1) n).map (·.confidence)).min?.getD 0⟩) := by
  have run : slice words i (n + 1) = .ok (first :: wordsAt words (i + 1) n) := by
    rw [slice, if_pos inside, ← wordsAt_succ found]
    rfl
  rw [matchAt, run]
  rfl

theorem isChain_before {R : BBox → BBox → Prop} (before : Option BBox) (first : BBox) (rest : List BBox) :
    (before.toList ++ first :: rest).IsChain R ↔
      (∀ box ∈ before, R box first) ∧ (first :: rest).IsChain R := by
  cases before with
  | none => simp
  | some box => simp [List.isChain_cons_cons]

/-- The box of the word before the `k`-th of the run at `i`. -/
def boxBefore (words : List Word) (i : Nat) : Nat → Option BBox
  | 0 => none
  | k + 1 => words[i + k]?.map Word.bbox

section Found

variable {edge : Int → Int}

theorem sameRowIn_ok (clamps : ∀ {n m}, ar.saturating n = .ok m → m = edge n) {a b : BBox} {same : Bool}
    (ended : a.sameRowIn ar b = .ok same) : same = true ↔ OnRow edge a b := by
  obtain ⟨bottomB, readB, ended⟩ := Collect.bind_ok ended
  obtain rfl := clamps readB
  by_cases above : a.y < edge (b.y + b.h)
  · rw [if_pos above] at ended
    obtain ⟨bottomA, readA, ended⟩ := Collect.bind_ok ended
    obtain rfl := clamps readA
    cases ended
    rw [decide_eq_true_iff]
    exact ⟨fun below => ⟨above, below⟩, fun row => row.2⟩
  · rw [if_neg above] at ended
    cases ended
    exact iff_of_false Bool.false_ne_true fun row => above row.1

theorem onRow_ok (clamps : ∀ {n m}, ar.saturating n = .ok m → m = edge n) {k : Nat} {word : Word}
    (found : words[i + k]? = some word) {row : Bool} (ended : onRow ar words i k = .ok row) :
    row = true ↔ ∀ box ∈ boxBefore words i k, OnRow edge box word.bbox := by
  cases k with
  | zero =>
    cases ended
    simp [boxBefore]
  | succ k =>
    obtain ⟨previous, readPrevious, ended⟩ := Collect.bind_ok ended
    obtain ⟨next, readNext, ended⟩ := Collect.bind_ok ended
    rw [index_eq_ok] at readPrevious readNext
    rw [Nat.add_assoc, found] at readNext
    cases readNext
    rw [sameRowIn_ok clamps ended, boxBefore, readPrevious]
    simp

/-- The loop over the tokens finds out whether the words are the wanted ones. -/
theorem okFrom_ok (clamps : ∀ {n m}, ar.saturating n = .ok m → m = edge n) {k : Nat}
    {want : List String} {ok : Bool} (ended : okFrom ar words caseSensitive i k want = .ok ok) :
    ok = true ↔ (wordsAt words (i + k) want.length).map (fun w => normalize caseSensitive w.text) = want ∧
      ((boxBefore words i k).toList ++ (wordsAt words (i + k) want.length).map Word.bbox).IsChain
        (OnRow edge) := by
  induction want generalizing k with
  | nil =>
    cases ended
    cases boxBefore words i k <;> simp [wordsAt]
  | cons wantTok want ih =>
    obtain ⟨word, read, ended⟩ := Collect.bind_ok ended
    have found := index_eq_ok.mp read
    have shape := wordsAt_succ found want.length
    by_cases other : normalize caseSensitive word.text ≠ wantTok
    · rw [if_pos other] at ended
      cases ended
      rw [List.length_cons, shape]
      exact iff_of_false Bool.false_ne_true fun run => other (List.cons.inj run.1).1
    · rw [if_neg other] at ended
      rw [not_not] at other
      obtain ⟨row, readRow, ended⟩ := Collect.bind_ok ended
      have onRow := onRow_ok clamps found readRow
      rw [List.length_cons, shape, List.map_cons, List.map_cons, isChain_before, ← onRow, other,
        List.cons_inj_right]
      cases row with
      | false =>
        cases ended
        exact iff_of_false Bool.false_ne_true fun run => Bool.false_ne_true run.2.1
      | true =>
        have later := ih ended
        have before : boxBefore words i (k + 1) = some word.bbox := by rw [boxBefore, found]; rfl
        rw [before] at later
        rw [later, Nat.add_assoc]
        simp

theorem okFrom_zero (clamps : ∀ {n m}, ar.saturating n = .ok m → m = edge n) {want : List String}
    {ok : Bool} (ended : okFrom ar words caseSensitive i 0 want = .ok ok) :
    ok = true ↔ Wanted edge words caseSensitive want i := by
  rw [okFrom_ok clamps ended]
  exact ⟨fun run => ⟨run.1, run.2⟩, fun run => ⟨run.texts, run.rows⟩⟩

/-- The loop over the starts keeps those of the wanted runs, each with its match. -/
theorem matchesFrom_ok (clamps : ∀ {n m}, ar.saturating n = .ok m → m = edge n) {want : List String}
    {n : Nat} {found : List TextMatch}
    (ended : matchesFrom ar words caseSensitive want i n = .ok found) :
    ∃ starts : List Nat, starts.Pairwise (· < ·) ∧
      (∀ j, j ∈ starts ↔ (i ≤ j ∧ j < i + n) ∧ Wanted edge words caseSensitive want j) ∧
      List.Forall₂ (fun j m => matchAt ar words j want.length = .ok m) starts found := by
  induction n generalizing i found with
  | zero =>
    cases ended
    exact ⟨[], .nil, fun j => by simp, .nil⟩
  | succ n ih =>
    obtain ⟨ok, readOk, ended⟩ := Collect.bind_ok ended
    have wanted := okFrom_zero clamps readOk
    cases ok with
    | false =>
      obtain ⟨starts, sorted, members, matched⟩ := ih ended
      refine ⟨starts, sorted, fun j => ?_, matched⟩
      rw [members]
      refine ⟨fun run => ⟨by omega, run.2⟩, fun run => ⟨?_, run.2⟩⟩
      have other : j ≠ i := by
        rintro rfl
        exact Bool.false_ne_true (wanted.mpr run.2)
      omega
    | true =>
      obtain ⟨m, first, ended⟩ := Collect.bind_ok ended
      obtain ⟨later, rest, ended⟩ := Collect.bind_ok ended
      cases ended
      obtain ⟨starts, sorted, members, matched⟩ := ih rest
      refine ⟨i :: starts, List.pairwise_cons.mpr ⟨fun j member => ?_, sorted⟩, fun j => ?_,
        .cons first matched⟩
      · have := (members j).mp member
        omega
      · rw [List.mem_cons, members]
        constructor
        · rintro (rfl | run)
          · exact ⟨by omega, wanted.mp rfl⟩
          · exact ⟨by omega, run.2⟩
        · rintro ⟨range, run⟩
          rcases Nat.eq_or_lt_of_le range.1 with rfl | later
          · exact Or.inl rfl
          · exact Or.inr ⟨by omega, run⟩

theorem exists_of_forall₂ {α β : Type} {R : α → β → Prop} {xs : List α} {ys : List β}
    (paired : List.Forall₂ R xs ys) {x : α} (member : x ∈ xs) : ∃ y ∈ ys, R x y := by
  induction paired with
  | nil => cases member
  | @cons x₁ y₁ xs ys first rest ih =>
    rcases List.mem_cons.mp member with rfl | later
    · exact ⟨y₁, List.mem_cons_self, first⟩
    · obtain ⟨y, inRest, holds⟩ := ih later
      exact ⟨y, List.mem_cons_of_mem _ inRest, holds⟩

/-- The words from the `i`-th on answer the query, which has a token. -/
structure IsRun (edge : Int → Int) (words : List Word) (caseSensitive : Bool) (query : String) (i : Nat) :
    Prop where
  asked : Text.splitWhitespace query ≠ []
  wanted : Wanted edge words caseSensitive ((Text.splitWhitespace query).map (normalize caseSensitive)) i

theorem Wanted.inside {want : List String} (wanted : Wanted edge words caseSensitive want i)
    (inhabited : want ≠ []) : i + want.length ≤ words.length := by
  have counted := congrArg List.length wanted.texts
  rw [List.length_map, wordsAt, List.length_take, List.length_drop] at counted
  have positive := List.length_pos_iff.mpr inhabited
  omega

theorem IsRun.inside (run : IsRun edge words caseSensitive query i) :
    i + (Text.splitWhitespace query).length ≤ words.length := by
  have inside := run.wanted.inside (List.map_eq_nil_iff.not.mpr run.asked)
  rwa [List.length_map] at inside

/-- A run has a first word, and the others follow it in bounds. -/
theorem IsRun.first (run : IsRun edge words caseSensitive query i) :
    ∃ n first, (Text.splitWhitespace query).length = n + 1 ∧ words[i]? = some first ∧
      i + (n + 1) ≤ words.length := by
  have inside := run.inside
  have positive := List.length_pos_iff.mpr run.asked
  obtain ⟨n, length⟩ : ∃ n, (Text.splitWhitespace query).length = n + 1 :=
    Nat.exists_eq_succ_of_ne_zero positive.ne'
  exact ⟨n, _, length, List.getElem?_eq_getElem (by omega), by omega⟩

theorem findWordRunsIn_ok (clamps : ∀ {n m}, ar.saturating n = .ok m → m = edge n)
    {found : List TextMatch} (ended : findWordRunsIn ar words caseSensitive query = .ok found) :
    ∃ starts : List Nat, starts.Pairwise (· < ·) ∧
      (∀ i, i ∈ starts ↔ IsRun edge words caseSensitive query i) ∧
      List.Forall₂ (fun i m => matchAt ar words i (Text.splitWhitespace query).length = .ok m)
        starts found := by
  unfold findWordRunsIn at ended
  dsimp only at ended
  split at ended
  · rename_i none
    cases ended
    refine ⟨[], .nil, fun i => ⟨nofun, fun run => ?_⟩, .nil⟩
    have inside := run.inside
    rcases none with blank | short
    · exact absurd (List.isEmpty_iff.mp blank) run.asked
    · omega
  · rename_i some
    rw [not_or, List.isEmpty_iff, not_lt] at some
    obtain ⟨starts, sorted, members, matched⟩ := matchesFrom_ok clamps ended
    refine ⟨starts, sorted, fun i => ?_, ?_⟩
    · rw [members]
      refine ⟨fun run => ⟨some.1, run.2⟩, fun run => ⟨?_, run.wanted⟩⟩
      have inside := run.inside
      rw [List.length_map]
      omega
    · simpa only [List.length_map] using matched

end Found

/-! ### Faults -/

section Faults

variable {P : Fault → Prop}

theorem sameRowIn_faults (saturating : ∀ n, Faults P (ar.saturating n)) (a b : BBox) :
    Faults P (a.sameRowIn ar b) := by
  refine (saturating _).bind fun bottom _ => ?_
  split
  · exact (saturating _).bind fun _ _ => faults_ok _
  · exact faults_ok _

theorem onRow_faults (saturating : ∀ n, Faults P (ar.saturating n)) {k : Nat}
    (inside : i + k < words.length) : Faults P (onRow ar words i k) := by
  cases k with
  | zero => exact faults_ok true
  | succ k =>
    refine (faults_index (by omega)).bind fun previous _ => ?_
    exact (faults_index inside).bind fun word _ => sameRowIn_faults saturating _ _

/-- No index is out of bounds for a run that ends with the words. -/
theorem okFrom_faults (saturating : ∀ n, Faults P (ar.saturating n)) {k : Nat} {want : List String}
    (inside : i + k + want.length ≤ words.length) : Faults P (okFrom ar words caseSensitive i k want) := by
  induction want generalizing k with
  | nil => exact faults_ok true
  | cons wantTok want ih =>
    rw [List.length_cons] at inside
    refine (faults_index (by omega)).bind fun word _ => ?_
    split
    · exact faults_ok false
    · refine (onRow_faults saturating (by omega)).bind fun row _ => ?_
      split
      · exact ih (by omega)
      · exact faults_ok false

variable {edge : Int → Int}

theorem matchesFrom_faults (saturating : ∀ n, Faults P (ar.saturating n))
    (clamps : ∀ {n m}, ar.saturating n = .ok m → m = edge n) {want : List String} {n : Nat}
    (inside : i + n + want.length ≤ words.length + 1)
    (merges : ∀ j, Wanted edge words caseSensitive want j → Faults P (matchAt ar words j want.length)) :
    Faults P (matchesFrom ar words caseSensitive want i n) := by
  induction n generalizing i with
  | zero => exact faults_ok []
  | succ n ih =>
    refine (okFrom_faults saturating (by omega)).bind fun ok readOk => ?_
    have later := ih (by omega : i + 1 + n + want.length ≤ words.length + 1)
    cases ok with
    | false => exact later
    | true =>
      refine (merges i ((okFrom_zero clamps readOk).mp rfl)).bind fun m _ => ?_
      exact later.bind fun found _ => faults_ok _

/-- The search stops only where the merging of some run does. -/
theorem findWordRunsIn_faults (saturating : ∀ n, Faults P (ar.saturating n))
    (clamps : ∀ {n m}, ar.saturating n = .ok m → m = edge n)
    (merges : ∀ i, IsRun edge words caseSensitive query i →
      Faults P (matchAt ar words i (Text.splitWhitespace query).length)) :
    Faults P (findWordRunsIn ar words caseSensitive query) := by
  unfold findWordRunsIn
  dsimp only
  split
  · exact faults_ok []
  · rename_i some
    rw [not_or, List.isEmpty_iff, not_lt] at some
    refine matchesFrom_faults saturating clamps ?_ fun j wanted => ?_
    · rw [List.length_map]
      omega
    · rw [List.length_map]
      exact merges j ⟨some.1, wanted⟩

theorem unionIn_faults (plain : ∀ n, Faults P (ar.plain n)) (saturating : ∀ n, Faults P (ar.saturating n))
    (a b : BBox) : Faults P (a.unionIn ar b) := by
  refine (saturating _).bind fun _ _ => ?_
  refine (saturating _).bind fun _ _ => ?_
  refine (saturating _).bind fun _ _ => ?_
  refine (saturating _).bind fun _ _ => ?_
  refine (plain _).bind fun _ _ => ?_
  exact (plain _).bind fun _ _ => faults_ok _

theorem matchAt_faults (plain : ∀ n, Faults P (ar.plain n)) (saturating : ∀ n, Faults P (ar.saturating n))
    {first : Word} (found : words[i]? = some first) {n : Nat} (inside : i + (n + 1) ≤ words.length) :
    Faults P (matchAt ar words i (n + 1)) := by
  rw [matchAt_eq found inside]
  refine (faults_foldlM (fun box w => ?_) _ _).bind fun box _ => faults_ok _
  exact unionIn_faults plain saturating box w.bbox

/-- Whatever the words, the search never indexes out of bounds. -/
theorem findWordRunsIn_inBounds (plain : ∀ n, Faults (· = .overflow) (ar.plain n))
    (saturating : ∀ n, Faults (· = .overflow) (ar.saturating n))
    (clamps : ∀ {n m}, ar.saturating n = .ok m → m = edge n) :
    Faults (· = .overflow) (findWordRunsIn ar words caseSensitive query) := by
  refine findWordRunsIn_faults saturating clamps fun i run => ?_
  obtain ⟨n, first, length, found, inside⟩ := run.first
  rw [length]
  exact matchAt_faults plain saturating found inside

end Faults

/-! ### The release build -/

section Release

theorem runMatches_cons (before : Option BBox) (wantTok : String) (want : List String) (word : Word) :
    runMatches caseSensitive before (wantTok :: want) (word :: words) = true ↔
      normalize caseSensitive word.text = wantTok ∧ (∀ box ∈ before, OnRow sat32 box word.bbox) ∧
        runMatches caseSensitive (some word.bbox) want words = true := by
  cases before with
  | none => simp [runMatches]
  | some box => simp [runMatches, sameRow, OnRow, Segments.Overlap, and_assoc]

theorem runMatches_iff {before : Option BBox} {want : List String} :
    runMatches caseSensitive before want words = true ↔
      (words.take want.length).map (fun w => normalize caseSensitive w.text) = want ∧
        (before.toList ++ (words.take want.length).map Word.bbox).IsChain (OnRow sat32) := by
  induction want generalizing before words with
  | nil => cases before <;> simp [runMatches]
  | cons wantTok want ih =>
    cases words with
    | nil => exact iff_of_false Bool.false_ne_true fun run => List.cons_ne_nil _ _ run.1.symm
    | cons word words =>
      rw [runMatches_cons, ih, List.length_cons, List.take_succ_cons, List.map_cons, List.map_cons,
        isChain_before, List.cons.injEq]
      simp only [Option.toList_some, List.singleton_append]
      tauto

theorem release_clamps {n m : Int} (ended : Arithmetic.release.saturating n = .ok m) : m = sat32 n :=
  (Except.ok.inj ended).symm

theorem okFrom_release {want : List String} (inside : i + want.length ≤ words.length) :
    okFrom .release words caseSensitive i 0 want = .ok (runMatches caseSensitive none want (words.drop i)) := by
  obtain ⟨ok, ended⟩ : ∃ ok, okFrom .release words caseSensitive i 0 want = .ok ok :=
    (okFrom_faults (fun _ => faults_ok _) inside).ends
  have same : ok = true ↔ runMatches caseSensitive none want (words.drop i) = true := by
    rw [okFrom_ok release_clamps ended, runMatches_iff]
    rfl
  rw [ended, Bool.eq_iff_iff.mpr same]

theorem matchAt_release {first : Word} (found : words[i]? = some first) {n : Nat}
    (inside : i + (n + 1) ≤ words.length) :
    matchAt .release words i (n + 1) = .ok (mergeRun first (wordsAt words (i + 1) n)) := by
  have boxes : (wordsAt words (i + 1) n).foldlM (fun box w => (.ok (box.union w.bbox) : Except Fault BBox))
      first.bbox = .ok ((wordsAt words (i + 1) n).foldl (fun box w => box.union w.bbox) first.bbox) :=
    List.foldlM_pure
  rw [matchAt_eq found inside]
  show (List.foldlM (fun box (w : Word) => (.ok (box.union w.bbox) : Except Fault BBox)) first.bbox _ >>=
    _) = _
  rw [boxes]
  simp only [mergeRun, List.map_cons, List.min?_cons', List.foldl_map, Option.getD_some]
  rfl

theorem matchesFrom_release {want : List String} (inhabited : want ≠ []) {n : Nat}
    (inside : i + n + want.length = words.length + 1) :
    matchesFrom .release words caseSensitive want i n =
      .ok (runsFrom caseSensitive want (words.drop i)) := by
  have positive := List.length_pos_iff.mpr inhabited
  induction n generalizing i with
  | zero =>
    -- No run fits behind the last start.
    have short : (runsFrom caseSensitive want (words.drop i)).length ≤
        (words.drop i).length + 1 - want.length := length_runsFrom_le _
    rw [List.length_drop] at short
    have none : runsFrom caseSensitive want (words.drop i) = [] := List.length_eq_zero_iff.mp (by omega)
    rw [none]
    rfl
  | succ n ih =>
    obtain ⟨first, found⟩ : ∃ first, words[i]? = some first := ⟨_, List.getElem?_eq_getElem (by omega)⟩
    obtain ⟨k, length⟩ : ∃ k, want.length = k + 1 := ⟨want.length - 1, by omega⟩
    have later := ih (by omega : i + 1 + n + want.length = words.length + 1)
    rw [matchesFrom, okFrom_release (by omega), drop_of_getElem? found, runsFrom]
    show (if runMatches caseSensitive none want (first :: words.drop (i + 1)) = true then _ else _) = _
    split
    · rw [length, matchAt_release found (by omega)]
      show (matchesFrom .release words caseSensitive want (i + 1) n >>= _) = _
      rw [later]
      rfl
    · exact later

/-- The release build's search is the search over the list. -/
theorem findWordRunsIn_release (words : List Word) (caseSensitive : Bool) (query : String) :
    findWordRunsIn .release words caseSensitive query = .ok (findWordRuns words query caseSensitive) := by
  unfold findWordRunsIn findWordRuns
  dsimp only
  by_cases blank : Text.splitWhitespace query = []
  · rw [blank]
    rfl
  · obtain ⟨want, shape⟩ : ∃ want, (Text.splitWhitespace query).map (normalize caseSensitive) = want :=
      ⟨_, rfl⟩
    have length : (Text.splitWhitespace query).length = want.length := by rw [← shape, List.length_map]
    have asked : want ≠ [] := shape ▸ List.map_eq_nil_iff.not.mpr blank
    rw [shape, length, if_neg fun none => asked (List.isEmpty_iff.mp none)]
    split
    · rename_i none
      have few : (runsFrom caseSensitive want words).length ≤ words.length + 1 - want.length :=
        length_runsFrom_le words
      have short : words.length < want.length := by
        rcases none with none | short
        · exact absurd (List.isEmpty_iff.mp none) blank
        · exact short
      have empty : runsFrom caseSensitive want words = [] := List.length_eq_zero_iff.mp (by omega)
      rw [empty]
      rfl
    · rename_i fits
      rw [not_or, not_lt] at fits
      exact matchesFrom_release asked (by omega)

end Release

end HyprPilot
