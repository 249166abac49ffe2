import HyprPilot.Base.Decimal
import HyprPilot.Base.Pieces
import HyprPilot.Core.Restore
import HyprPilot.Daemon.Undo

/-!
# Workspace arguments

A workspace reference is sent as its text, in the grammar that `parse` reads. The text of every
reference is read back as that reference, but for a negative id: its sign makes it an offset.
-/

namespace HyprPilot
open Interact

/-! ### Prefixes -/

section Head

variable {s pre : String} {c d : Char} {cs ds : List Char}

theorem stripPrefix_head (shape : s.toList = c :: cs) (start : pre.toList = d :: ds) (other : d ≠ c) :
    Text.stripPrefix pre s = none := by
  simp [Text.stripPrefix, shape, start, List.isPrefixOf?, other]

theorem startsWith_head (shape : s.toList = c :: cs) (start : pre.toList = d :: ds) (other : d ≠ c) :
    Text.startsWith pre s = false := by
  simp [Text.startsWith, shape, start, List.isPrefixOf, other]

theorem ne_of_head (shape : s.toList = c :: cs) (start : pre.toList = d :: ds) (other : d ≠ c) :
    s ≠ pre := by
  rintro rfl
  rw [shape] at start
  exact other (List.cons.inj start).1.symm

end Head

namespace WorkspaceRef

/-- The numbers of a reference are `i32`. -/
def InI32 : WorkspaceRef → Prop
  | .id n | .relative n => Machine.InI32 n
  | _ => True

/-- What begins like none of the keywords is none of them. -/
theorem not_keyword {s : String} {c : Char} {cs : List Char} (shape : s.toList = c :: cs)
    (number : c ∉ ['n', 's', 'e', 'p']) :
    Text.stripPrefix "name:" s = none ∧ Text.stripPrefix "special:" s = none ∧ s ≠ "special" ∧
      s ≠ "empty" ∧ ¬(s = "prev" ∨ s = "previous") ∧ s ≠ "next" := by
  obtain ⟨n, s', e, p⟩ : 'n' ≠ c ∧ 's' ≠ c ∧ 'e' ≠ c ∧ 'p' ≠ c := by
    simp only [List.mem_cons, List.not_mem_nil, or_false, not_or] at number
    obtain ⟨n, s', e, p⟩ := number
    exact ⟨Ne.symm n, Ne.symm s', Ne.symm e, Ne.symm p⟩
  refine ⟨stripPrefix_head shape rfl n, stripPrefix_head shape rfl s', ne_of_head shape rfl s',
    ne_of_head shape rfl e, ?_, ne_of_head shape rfl n⟩
  exact not_or.mpr ⟨ne_of_head shape rfl p, ne_of_head shape rfl p⟩

theorem parseRelative_toString {n : Int} (fits : Machine.InI32 n) :
    parseRelative (toString n) = .ok (.relative n) := by
  rw [parseRelative, Text.parseI32_toString fits]

theorem parse_nonneg {n : Int} (fits : Machine.InI32 n) (nonneg : 0 ≤ n) :
    parse (toString n) = .ok (.id n) := by
  obtain ⟨c, cs, shape, digit⟩ := Text.toDigits_eq_cons n.toNat
  have text := (Text.toList_toString_nonneg nonneg).trans shape
  have other (d : Char) (letter : d.isDigit = false) : d ≠ c := (Text.ne_of_isDigit digit letter).symm
  have number : c ∉ ['n', 's', 'e', 'p'] := by
    simp [(other 'n' rfl).symm, (other 's' rfl).symm, (other 'e' rfl).symm, (other 'p' rfl).symm]
  have plus : Text.stripPrefix "+" (toString n) = none := stripPrefix_head text rfl (other '+' rfl)
  have minus : Text.startsWith "-" (toString n) = false := startsWith_head text rfl (other '-' rfl)
  obtain ⟨name, special, bare, empty, prev, next⟩ := not_keyword text number
  simp only [parse, name, special, if_neg bare, if_neg empty, if_neg prev, if_neg next,
    plus, minus, Bool.false_eq_true, if_false, Text.parseI32_toString fits]

theorem parse_neg {n : Int} (fits : Machine.InI32 n) (negative : n < 0) :
    parse (toString n) = .ok (.relative n) := by
  have text := Text.toList_toString_neg negative
  have minus : Text.startsWith "-" (toString n) = true := by
    rw [Text.startsWith, text]
    rfl
  have plus : Text.stripPrefix "+" (toString n) = none := stripPrefix_head text rfl (by decide)
  obtain ⟨name, special, bare, empty, prev, next⟩ := not_keyword text (by decide)
  simp only [parse, name, special, if_neg bare, if_neg empty, if_neg prev, if_neg next, plus,
    if_pos minus, parseRelative_toString fits]

theorem parse_plus {n : Int} (fits : Machine.InI32 n) :
    parse ("+" ++ toString n) = .ok (.relative n) := by
  have text : ("+" ++ toString n).toList = '+' :: (toString n).toList := String.toList_append
  obtain ⟨name, special, bare, empty, prev, next⟩ := not_keyword text (by decide)
  simp only [parse, name, special, if_neg bare, if_neg empty, if_neg prev, if_neg next,
    Text.stripPrefix_append, parseRelative_toString fits]

theorem parse_name (n : String) : parse ("name:" ++ n) = .ok (.name n) := by
  rw [parse, Text.stripPrefix_append]

theorem parse_special {n : String} : parse ("special:" ++ n) = .ok (.special n) := by
  have text : ("special:" ++ n).toList = 's' :: ("pecial:".toList ++ n.toList) := String.toList_append
  rw [parse, stripPrefix_head text rfl (by decide), Text.stripPrefix_append]

/-- The text of a reference is read back as the reference, unless it is a negative id. -/
theorem parse_encode {w : WorkspaceRef} (fits : w.InI32) :
    parse w.encode = .ok w ↔ ∀ k, w = .id k → 0 ≤ k := by
  cases w with
  | id n =>
    simp only [id.injEq, forall_eq', encode]
    constructor
    · intro same
      by_contra negative
      rw [parse_neg fits (by omega)] at same
      cases same
    · exact parse_nonneg fits
  | relative n =>
    simp only [reduceCtorEq, false_implies, implies_true, iff_true, encode]
    split
    · exact parse_plus fits
    · exact parse_neg fits (by omega)
  | name n => simpa [encode] using parse_name n
  | special n =>
    simp only [reduceCtorEq, false_implies, implies_true, iff_true, encode]
    split
    · rename_i empty
      obtain rfl := String.isEmpty_iff.mp empty
      decide
    · exact parse_special
  | previous | next | empty => exact iff_of_true (by decide) (by simp)

theorem parse_encode_id {k : Int} (fits : Machine.InI32 k) :
    parse (encode (.id k)) = .ok (.id k) ↔ 0 ≤ k := by
  rw [parse_encode (w := .id k) fits]
  simp

end WorkspaceRef

/-! ### Captured ids in dispatcher calls -/

/-- The workspace that a dispatcher's text names. -/
def Dispatcher.workspace : Dispatcher → Option WorkspaceRef
  | .switchWorkspace ws | .moveActiveToWorkspace ws | .moveActiveToWorkspaceSilent ws
  | .moveToWorkspaceSilent ws _ => some ws
  | _ => none

/-- A workspace argument, if the command has one, is read as the absolute workspace. -/
def NamesWorkspace (k : Int) : Connection.Cmd → Prop
  | .dispatch d => ∀ ws, d.workspace = some ws → WorkspaceRef.parse ws.encode = .ok (.id k)
  | _ => True

theorem inverse_names {k : Int} (fits : Machine.InI32 k) (sel : WindowSelector) (silent : Bool) :
    (applyInverse (.moveToWorkspace sel (.id k) silent)).Asks (NamesWorkspace k) ↔ 0 ≤ k := by
  rw [← WorkspaceRef.parse_encode_id fits]
  constructor
  · intro names
    have sent := names.2 (.ok ())
    cases silent with
    | true => exact sent.1 _ rfl
    | false => exact sent.1 _ rfl
  · intro same
    have focus : NamesWorkspace k (.dispatch (.focusWindow sel)) := fun ws given => by cases given
    refine And.intro focus fun answer => ?_
    cases answer with
    | error e => trivial
    | ok _ =>
      cases silent
      all_goals
        refine And.intro ?_ fun _ => trivial
        rintro ws ⟨⟩
        exact same

theorem restore_names {k : Int} (fits : Machine.InI32 k) (address : String) (fromWorkspace : Int) :
    (applyAction (.moveToWorkspace address fromWorkspace k)).Asks (NamesWorkspace k) ↔ 0 ≤ k := by
  rw [← WorkspaceRef.parse_encode_id fits]
  constructor
  · exact fun names => names.1 _ rfl
  · intro same
    refine And.intro ?_ fun _ => trivial
    rintro ws ⟨⟩
    exact same

/-- The text of a reference is read back as the reference exactly when it is no negative id, and so
are the workspaces that an undo or a restore sends for a captured id. -/
theorem workspace_faithful_iff {w : WorkspaceRef} (fits : w.InI32) :
    (WorkspaceRef.parse w.encode = .ok w ↔ ∀ k, w = .id k → 0 ≤ k) ∧
      ∀ k, w = .id k →
        (∀ sel silent,
          (applyInverse (.moveToWorkspace sel w silent)).Asks (NamesWorkspace k) ↔ 0 ≤ k) ∧
        ∀ address fromWorkspace,
          (applyAction (.moveToWorkspace address fromWorkspace k)).Asks (NamesWorkspace k) ↔ 0 ≤ k := by
  refine ⟨WorkspaceRef.parse_encode fits, ?_⟩
  rintro k rfl
  exact ⟨inverse_names fits, restore_names fits⟩

theorem workspace_faithful_third :
    (applyAction (.moveToWorkspace "0x1" 1 3)).Asks (NamesWorkspace 3) :=
  (((workspace_faithful_iff (w := .id 3) (by decide : Machine.InI32 3)).2 3 rfl).2 "0x1" 1).mpr (by decide)

/-- The id -98 of a special workspace is sent as the offset -98. -/
theorem workspace_unfaithful :
    ¬∀ w : WorkspaceRef, w.InI32 → WorkspaceRef.parse w.encode = .ok w := by
  intro all
  have same := all (.id (-98)) (by decide : Machine.InI32 (-98))
  have text : WorkspaceRef.parse (WorkspaceRef.encode (.id (-98))) = .ok (.relative (-98)) := by decide
  rw [text] at same
  cases same

end HyprPilot
