import HyprPilot.Mcp.DryRun

/-!
# Which candidate a click selects

Both click tools collect their candidates, choose one and go on from it. The parser turns an absent
`match_index` into 0 and the choice takes 0 for an absent index, so that the index of the first of
several candidates is the one index that a caller cannot pin.
-/

namespace HyprPilot
open Interact

namespace Mcp

variable {α κ : Type} {id : Json}

def orReply (next : α → Session JsonRpcResponse) :
    Except JsonRpcResponse α → Session JsonRpcResponse
  | .error response => return response
  | .ok a => next a

/-! ### The stages of a text click -/

/-- The scan of a text click: the region that it covered and the matches in it. -/
def textCandidates (id : Json) (op : ClickTextOp) :
    Session (Except JsonRpcResponse (Option Region × List TextMatch)) := do
  match ← scanRegion id op.toFindTextOp with
  | .error response => return .error response
  | .ok region =>
    match ← scanForMatches region op.toFindTextOp with
    | .error e => return .error (toolError id .toolExecution e)
    | .ok found => return .ok (region, found)

/-- The click on a chosen match. -/
def matchChosen (id : Json) (op : ClickTextOp) (region : Option Region) (total : Nat)
    (chosen : TextMatch) : Session JsonRpcResponse := do
  match ← asked id .queryMonitors with
  | .error response => return response
  | .ok (.monitors monitors) =>
    let (x, y) := clickPoint chosen.bbox (pickScale monitors region) region
    if op.dryRun then return .shown id (.clickPreview op chosen total x y)
    else clickAt id x y op.button (.clickApplied chosen total x y)
  | .ok _ => return malformed id "monitors"

def matchesFound (id : Json) (op : ClickTextOp) (region : Option Region) (found : List TextMatch) :
    Session JsonRpcResponse :=
  orReply (matchChosen id op region found.length)
    (chooseMatch id op.requireUnique op.matchIndex found
      ("no on-screen text matched query `" ++ op.query ++ "`") (renderAmbiguity op.query found)
      (outOfBounds op.matchIndex found.length "match(es)" op.query))

/-! ### The stages of an element click -/

/-- The search of an element click: the pid that the daemon resolved and the clickable elements. -/
def elementCandidates (id : Json) (op : A11yClickOp) :
    Session (Except JsonRpcResponse (Option Int × List Element)) := do
  match ← asked id (.a11yFind op.pid op.query op.role op.maxNodes) with
  | .error response => return .error response
  | .ok value =>
    return .ok ((foundElements value).1, (foundElements value).2.filter Element.isClickable)

/-- The click on a chosen element. -/
def elementChosen (id : Json) (op : A11yClickOp) (resolvedPid : Option Int) (total : Nat)
    (chosen : Element) : Session JsonRpcResponse := do
  match resolvedPid with
  | none =>
    return toolError id .toolExecution "daemon did not report a resolved pid to anchor the click"
  | some pid =>
    match ← asked id .queryClients with
    | .error response => return response
    | .ok (.clients clients) =>
      match pickWindowForPid clients pid with
      | none =>
        return toolError id .toolExecution
          ("no window found for pid " ++ toString pid ++ " to anchor the click")
      | some window =>
        let x := Machine.wrap32 (window.at_.1 + chosen.center.1)
        let y := Machine.wrap32 (window.at_.2 + chosen.center.2)
        if op.dryRun then return .shown id (.elementPreview op chosen total window x y)
        else clickAt id x y op.button (.elementApplied chosen total x y)
    | .ok _ => return malformed id "clients"

def elementsFound (id : Json) (op : A11yClickOp) (resolvedPid : Option Int)
    (found : List Element) : Session JsonRpcResponse :=
  orReply (elementChosen id op resolvedPid found.length)
    (chooseMatch id op.requireUnique op.matchIndex found
      ("no clickable accessibility element matched `" ++ op.query ++ "`")
      (renderA11yAmbiguity op.query found)
      (outOfBounds op.matchIndex found.length "clickable match(es)" op.query))

/-! ### Stages -/

/-- The commands that neither move nor click the pointer. -/
def Still : Cmd → Prop
  | .daemon (.inputMouseMove ..) | .daemon (.inputMouseClick _) => False
  | _ => True

/-- A handler collects candidates with the pointer still and then does what `next` does with them. -/
structure Staged (handler : Session JsonRpcResponse)
    (candidates : Session (Except JsonRpcResponse (κ × List α)))
    (next : κ → List α → Session JsonRpcResponse) : Prop where
  staged : handler = candidates >>= orReply fun found => next found.1 found.2
  still : candidates.Asks Still

theorem still_of_harmless (c : Cmd) (harmless : Harmless c) : Still c := by
  unfold Still
  split
  · exact Daemon.harmless_iff.mp harmless
  · exact Daemon.harmless_iff.mp harmless
  · trivial

theorem staged_clickText (op : ClickTextOp) :
    Staged (handleClickText id op) (textCandidates id op) (matchesFound id op) where
  staged := by
    unfold handleClickText textCandidates
    rw [Prog.bind_assoc]
    refine bind_congr fun scanned => ?_
    cases scanned with
    | error response => rfl
    | ok region =>
      refine Eq.trans ?_ (Prog.bind_assoc _ _ _).symm
      refine bind_congr fun found => ?_
      cases found with
      | error e => rfl
      | ok found =>
        show _ = matchesFound id op region found
        unfold matchesFound
        dsimp only
        generalize chooseMatch id op.requireUnique op.matchIndex found
          ("no on-screen text matched query `" ++ op.query ++ "`") (renderAmbiguity op.query found)
          (outOfBounds op.matchIndex found.length "match(es)" op.query) = choice
        cases choice <;> rfl
  still := by
    refine Prog.Asks.bind ((asks_scanRegion _).mono still_of_harmless) fun scanned => ?_
    cases scanned with
    | error response => trivial
    | ok region =>
      refine Prog.Asks.bind ((asks_scanForMatches _ _).mono fun c inside =>
        still_of_harmless c (harmless_of_local c inside)) fun found => ?_
      cases found <;> trivial

theorem staged_a11yClick (op : A11yClickOp) :
    Staged (handleA11yClick id op) (elementCandidates id op) (elementsFound id op) where
  staged := by
    unfold handleA11yClick elementCandidates
    rw [Prog.bind_assoc]
    refine bind_congr fun answer => ?_
    cases answer with
    | error response => rfl
    | ok value =>
      show _ = elementsFound id op (foundElements value).1
        ((foundElements value).2.filter Element.isClickable)
      unfold elementsFound
      dsimp only
      generalize (foundElements value).2.filter Element.isClickable = found
      generalize chooseMatch id op.requireUnique op.matchIndex found
        ("no clickable accessibility element matched `" ++ op.query ++ "`")
        (renderA11yAmbiguity op.query found)
        (outOfBounds op.matchIndex found.length "clickable match(es)" op.query) = choice
      cases choice <;> rfl
  still := by
    refine Prog.Asks.bind ((asks_asked (by exact trivial)).mono still_of_harmless) fun answer => ?_
    cases answer <;> trivial

/-! ### The choice -/

/-- The selection that a call with these two arguments has to make among the candidates: `goOn`
clicks a candidate, `next` is what the handler does. -/
structure Honours (id : Json) (matchIndex : Option Nat) (requireUnique : Bool) (ambiguity : String)
    (found : List α) (goOn : α → Session JsonRpcResponse) (next : Session JsonRpcResponse) :
    Prop where
  pinned : ∀ i a, matchIndex = some i → found[i]? = some a → next = goOn a
  first : matchIndex = none → found.length = 1 ∨ requireUnique = false →
    ∃ a, found.head? = some a ∧ next = goOn a
  ambiguous : matchIndex = none → found.length ≠ 1 → requireUnique = true →
    next = .ret (toolError id .toolExecution ambiguity)
  outside : ∀ i, matchIndex = some i → found.length ≤ i →
    ∃ message, next = .ret (toolError id .invalidParams message)
  quiet : (∃ a ∈ found, next = goOn a) ∨ ∃ response, next = .ret response

/-- There is a candidate, and index 0 is not pinned where the choice takes it for absent. -/
def Selectable (matchIndex : Option Nat) (requireUnique : Bool) (found : List α) : Prop :=
  found ≠ [] ∧ ¬(matchIndex = some 0 ∧ requireUnique = true ∧ 1 < found.length)

theorem toolError_text {message message' : String}
    (equal : toolError id .toolExecution message = toolError id .toolExecution message') :
    message = message' := by
  injection equal with _ result
  injection result with result
  injection result with result
  injection result with content
  injection content with content
  injection content

theorem head_append {s t : String} {c : Char} (head : s.toList.head? = some c) :
    (s ++ t).toList.head? = some c := by
  rw [String.toList_append, List.head?_append, head]
  rfl

/-- Texts that begin with different characters differ. -/
theorem ne_of_heads {s t : String} {c d : Char} (first : s.toList.head? = some c)
    (second : t.toList.head? = some d) (differ : c ≠ d) : s ≠ t := by
  rintro rfl
  exact differ (Option.some.inj (first.symm.trans second))

section Choice

variable {index : Nat} {matchIndex : Option Nat} {requireUnique : Bool} {found : List α}
  {missing ambiguity bounds : String} {goOn : α → Session JsonRpcResponse} {a : α}

theorem choose_empty :
    orReply goOn (chooseMatch id requireUnique index [] missing ambiguity bounds) =
      .ret (toolError id .toolExecution missing) := by
  rfl

theorem choose_folded (unique : requireUnique = true) (several : 1 < found.length) :
    orReply goOn (chooseMatch id requireUnique 0 found missing ambiguity bounds) =
      .ret (toolError id .toolExecution ambiguity) := by
  have nonempty : ¬found.isEmpty = true := by
    intro empty
    rw [List.isEmpty_iff.mp empty] at several
    exact Nat.not_lt_zero _ several
  rw [chooseMatch, if_neg nonempty, if_pos ⟨unique, several, rfl⟩]
  rfl

theorem choose_at (located : found[index]? = some a)
    (clear : requireUnique = true → index = 0 → found.length ≤ 1) :
    orReply goOn (chooseMatch id requireUnique index found missing ambiguity bounds) = goOn a := by
  rw [chooseMatch_ok located clear]
  rfl

theorem choose_beyond (nonempty : found ≠ []) (beyond : found.length ≤ index) :
    orReply goOn (chooseMatch id requireUnique index found missing ambiguity bounds) =
      .ret (toolError id .invalidParams bounds) := by
  have positive := List.length_pos_of_ne_nil nonempty
  have pinned : ¬(requireUnique = true ∧ 1 < found.length ∧ index = 0) := by omega
  rw [chooseMatch, if_neg (by simpa using nonempty), if_neg pinned,
    List.getElem?_eq_none_iff.mpr beyond]
  rfl

theorem honours_of_selectable (selectable : Selectable matchIndex requireUnique found) :
    Honours id matchIndex requireUnique ambiguity found goOn
      (orReply goOn
        (chooseMatch id requireUnique (matchIndex.getD 0) found missing ambiguity bounds)) where
  pinned i a given located := by
    subst given
    apply choose_at located
    intro unique zero
    have zero : i = 0 := zero
    subst zero
    exact Nat.le_of_not_lt fun several => selectable.2 ⟨rfl, unique, several⟩
  first absent sure := by
    subst absent
    obtain ⟨a, rest, rfl⟩ := List.exists_cons_of_ne_nil selectable.1
    refine ⟨a, rfl, choose_at rfl fun unique _ => ?_⟩
    rcases sure with alone | lax
    · exact alone.le
    · rw [lax] at unique
      cases unique
  ambiguous absent many unique := by
    subst absent
    have positive := List.length_pos_of_ne_nil selectable.1
    exact choose_folded unique (by omega)
  outside i given beyond := by
    subst given
    exact ⟨bounds, choose_beyond selectable.1 beyond⟩
  quiet := by
    by_cases beyond : found.length ≤ matchIndex.getD 0
    · exact .inr ⟨_, choose_beyond selectable.1 beyond⟩
    · by_cases folded : requireUnique = true ∧ 1 < found.length ∧ matchIndex.getD 0 = 0
      · rw [folded.2.2]
        exact .inr ⟨_, choose_folded folded.1 folded.2.1⟩
      · have inside : matchIndex.getD 0 < found.length := by omega
        refine .inl ⟨found[matchIndex.getD 0], List.getElem_mem inside, ?_⟩
        apply choose_at (List.getElem?_eq_getElem inside)
        intro unique zero
        exact Nat.le_of_not_lt fun several => folded ⟨unique, several, zero⟩

theorem honours_iff (differ : missing ≠ ambiguity)
    (goes : ∀ a, goOn a ≠ .ret (toolError id .toolExecution ambiguity)) :
    Honours id matchIndex requireUnique ambiguity found goOn
        (orReply goOn
          (chooseMatch id requireUnique (matchIndex.getD 0) found missing ambiguity bounds)) ↔
      Selectable matchIndex requireUnique found := by
  refine ⟨fun honours => ⟨?_, ?_⟩, honours_of_selectable⟩
  · rintro rfl
    rw [choose_empty] at honours
    cases matchIndex with
    | some i =>
      obtain ⟨message, equal⟩ := honours.outside i rfl (Nat.zero_le i)
      cases equal
    | none =>
      cases requireUnique with
      | false =>
        obtain ⟨a, first, -⟩ := honours.first rfl (.inr rfl)
        cases first
      | true =>
        have equal := honours.ambiguous rfl Nat.zero_ne_one rfl
        injection equal with equal
        exact differ (toolError_text equal)
  · rintro ⟨rfl, unique, several⟩
    have equal : _ = goOn _ := honours.pinned 0 found[0] rfl (List.getElem?_eq_getElem (by omega))
    exact goes _ (equal.symm.trans (choose_folded unique several))

end Choice

/-! ### The tools -/

theorem renderAmbiguity_head {query : String} {found : List TextMatch} :
    (renderAmbiguity query found).toList.head? = some 'a' := by
  unfold renderAmbiguity
  repeat rw [String.append_assoc]
  refine head_append ?_
  rfl

theorem renderA11yAmbiguity_head {query : String} {found : List Element} :
    (renderA11yAmbiguity query found).toList.head? = some 'a' := by
  unfold renderA11yAmbiguity
  repeat rw [String.append_assoc]
  refine head_append ?_
  rfl

theorem matchesFound_honours {op : ClickTextOp} {matchIndex : Option Nat} {region : Option Region}
    {found : List TextMatch} (index : op.matchIndex = matchIndex.getD 0) :
    Honours id matchIndex op.requireUnique (renderAmbiguity op.query found) found
        (matchChosen id op region found.length) (matchesFound id op region found) ↔
      Selectable matchIndex op.requireUnique found := by
  unfold matchesFound
  rw [index]
  apply honours_iff
  · exact ne_of_heads (c := 'n') (head_append (head_append rfl)) renderAmbiguity_head (by decide)
  · intro a equal
    cases equal

theorem elementsFound_honours {op : A11yClickOp} {matchIndex : Option Nat} {pid : Option Int}
    {found : List Element} (index : op.matchIndex = matchIndex.getD 0) :
    Honours id matchIndex op.requireUnique (renderA11yAmbiguity op.query found) found
        (elementChosen id op pid found.length) (elementsFound id op pid found) ↔
      Selectable matchIndex op.requireUnique found := by
  unfold elementsFound
  rw [index]
  apply honours_iff
  · exact ne_of_heads (c := 'n') (head_append (head_append rfl)) renderA11yAmbiguity_head (by decide)
  · intro a equal
    cases pid with
    | some pid => cases equal
    | none =>
      injection equal with equal
      exact ne_of_heads (c := 'd') rfl renderA11yAmbiguity_head (by decide) (toolError_text equal)

theorem clickText_args {args : Json} {p : ClickTextArgs} {op : ClickTextOp}
    (read : ClickTextArgs.ofJson (Tools.orEmpty args) = .ok p)
    (accepted : Tools.dispatch "click_text" args = .ok (.clickText op)) :
    op.matchIndex = p.matchIndex.getD 0 ∧ op.requireUnique = p.requireUnique := by
  have accepted : Tools.dispatchTool .clickText args = .ok (.clickText op) := accepted
  obtain ⟨q, parsed, rest⟩ := Collect.bind_ok accepted
  obtain ⟨scan, -, rest⟩ := Collect.bind_ok rest
  obtain ⟨button, -, ending⟩ := Collect.bind_ok rest
  cases read.symm.trans (parseArgs_ok parsed)
  cases ending
  exact ⟨rfl, rfl⟩

theorem a11yClick_args {args : Json} {p : A11yClickArgs} {op : A11yClickOp}
    (read : A11yClickArgs.ofJson (Tools.orEmpty args) = .ok p)
    (accepted : Tools.dispatch "a11y_click" args = .ok (.a11yClick op)) :
    op.matchIndex = p.matchIndex.getD 0 ∧ op.requireUnique = p.requireUnique := by
  have accepted : Tools.dispatchTool .a11yClick args = .ok (.a11yClick op) := accepted
  obtain ⟨q, parsed, rest⟩ := Collect.bind_ok accepted
  obtain ⟨_, -, rest⟩ := Collect.bind_ok rest
  obtain ⟨button, -, ending⟩ := Collect.bind_ok rest
  cases read.symm.trans (parseArgs_ok parsed)
  cases ending
  exact ⟨rfl, rfl⟩

/-- Each tool collects its candidates with the pointer still, and the selection that the passed
arguments ask for is made exactly when it is selectable. -/
theorem selection_honoured_iff (id args : Json) :
    (∀ p op, ClickTextArgs.ofJson (Tools.orEmpty args) = .ok p →
      Tools.dispatch "click_text" args = .ok (.clickText op) →
      Staged (runDispatch id (.clickText op)) (textCandidates id op) (matchesFound id op) ∧
      ∀ region found,
        Honours id p.matchIndex p.requireUnique (renderAmbiguity op.query found) found
          (matchChosen id op region found.length) (matchesFound id op region found) ↔
        Selectable p.matchIndex p.requireUnique found) ∧
    (∀ p op, A11yClickArgs.ofJson (Tools.orEmpty args) = .ok p →
      Tools.dispatch "a11y_click" args = .ok (.a11yClick op) →
      Staged (runDispatch id (.a11yClick op)) (elementCandidates id op) (elementsFound id op) ∧
      ∀ pid found,
        Honours id p.matchIndex p.requireUnique (renderA11yAmbiguity op.query found) found
          (elementChosen id op pid found.length) (elementsFound id op pid found) ↔
        Selectable p.matchIndex p.requireUnique found) := by
  constructor
  · intro p op read accepted
    obtain ⟨index, unique⟩ := clickText_args read accepted
    refine ⟨staged_clickText op, fun region found => ?_⟩
    rw [← unique]
    exact matchesFound_honours index
  · intro p op read accepted
    obtain ⟨index, unique⟩ := a11yClick_args read accepted
    refine ⟨staged_a11yClick op, fun pid found => ?_⟩
    rw [← unique]
    exact elementsFound_honours index

/-! ### Two buttons -/

def pinning (index : Int) : Json :=
  .obj [("query", .str "save"), ("match_index", .int index), ("dry_run", .bool false)]

def pinnedClick (index : Nat) : ClickTextOp := { saveClick none with matchIndex := index }

def pinnedElement (index : Nat) : A11yClickOp where
  query := "save"
  role := none
  pid := none
  button := .left
  matchIndex := index
  requireUnique := true
  maxNodes := none
  dryRun := false

/-- Index 1 of two candidates can be pinned with either tool. -/
theorem second_pinned :
    matchesFound .null (pinnedClick 1) none [saveMatch, saveMatch] =
        matchChosen .null (pinnedClick 1) none 2 saveMatch ∧
      elementsFound .null (pinnedElement 1) (some 7) [button, button] =
        elementChosen .null (pinnedElement 1) (some 7) 2 button := by
  have honoured := selection_honoured_iff .null (pinning 1)
  have text := honoured.1 ⟨_, none, some 1, true, false⟩ (pinnedClick 1) rfl rfl
  have element := honoured.2 ⟨_, _, _, none, some 1, true, _, false⟩ (pinnedElement 1) rfl rfl
  constructor
  · exact ((text.2 none [saveMatch, saveMatch]).mpr ⟨by simp, by simp⟩).pinned 1 saveMatch rfl rfl
  · exact ((element.2 (some 7) [button, button]).mpr ⟨by simp, by simp⟩).pinned 1 button rfl rfl

/-- Index 0 of two matches is pinned, and the answer is that the query is ambiguous. -/
theorem first_not_pinned :
    (∃ p, ClickTextArgs.ofJson (pinning 0) = .ok p ∧ p.matchIndex = some 0) ∧
      Tools.dispatch "click_text" (pinning 0) = .ok (.clickText (pinnedClick 0)) ∧
      Prog.Run (runDispatch .null (.clickText (pinnedClick 0)))
        [⟨.grimDetect, .ok ()⟩, ⟨.grimFull none false .ppm, .ok []⟩, ⟨.tesseractDetect, .ok ()⟩,
          ⟨.extractWords "eng" .sparseText 50 [], .ok (saveScene.words ++ saveScene.words)⟩]
        (toolError .null .toolExecution (renderAmbiguity "save" [saveMatch, saveMatch])) ∧
      ¬Honours .null (some 0) true (renderAmbiguity "save" [saveMatch, saveMatch])
        [saveMatch, saveMatch] (matchChosen .null (pinnedClick 0) none 2)
        (matchesFound .null (pinnedClick 0) none [saveMatch, saveMatch]) := by
  refine ⟨⟨_, rfl, rfl⟩, rfl, ?_, ?_⟩
  · refine Prog.run_ask.mpr ⟨Except.ok (), _, rfl, ?_⟩
    refine Prog.run_ask.mpr ⟨Except.ok [], _, rfl, ?_⟩
    refine Prog.run_ask.mpr ⟨Except.ok (), _, rfl, ?_⟩
    refine Prog.run_ask.mpr ⟨Except.ok _, _, rfl, ?_⟩
    exact Prog.run_ret.mpr ⟨rfl, rfl⟩
  · intro honours
    have selectable : Selectable (some 0) (pinnedClick 0).requireUnique [saveMatch, saveMatch] :=
      (matchesFound_honours rfl).mp honours
    exact selectable.2 ⟨rfl, rfl, by decide⟩

end Mcp

end HyprPilot
