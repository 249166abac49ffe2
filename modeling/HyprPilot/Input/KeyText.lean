import HyprPilot.Base.Pieces
import HyprPilot.Input.Keys
import Mathlib.Data.Finset.Dedup

/-!
# The printed form of a key combo

What `KeyCombo.parse` reads from a text, and whether it reads the same combo back from the text
that the combo prints.
-/

namespace HyprPilot

theorem ModifierSet.mem_iter {modifiers : ModifierSet} {m : Modifier} :
    m ∈ modifiers.iter ↔ m ∈ modifiers := by
  rw [ModifierSet.iter, List.mem_filter]
  cases m <;> simp

theorem ModifierSet.iter_toFinset (modifiers : ModifierSet) :
    modifiers.iter.toFinset = modifiers := by
  ext m
  rw [List.mem_toFinset, ModifierSet.mem_iter]

namespace Modifier

theorem hyprctlName_clear (m : Modifier) : ',' ∉ m.hyprctlName.toList ∧ ' ' ∉ m.hyprctlName.toList := by
  cases m <;> decide

theorem hyprctlName_inhabited (m : Modifier) : m.hyprctlName ≠ "" := by cases m <;> decide

theorem hyprctlName_inj {m n : Modifier} (same : m.hyprctlName = n.hyprctlName) : m = n := by
  cases m <;> cases n <;> first | rfl | exact absurd same (by decide)

theorem parse_wtypeName {m : Modifier} (plain : m ≠ .super) : parse m.wtypeName = some m := by
  cases m with
  | super => exact absurd rfl plain
  | _ => decide

theorem parse_wtypeName_super : parse (wtypeName .super) = none := by decide

theorem wtypeName_clear (m : Modifier) : '+' ∉ m.wtypeName.toList := by cases m <;> decide

theorem wtypeName_trimmed (m : Modifier) : Text.Trimmed m.wtypeName := by
  cases m <;> constructor <;> intro c shown <;> cases shown <;> rfl

theorem wtypeName_inhabited (m : Modifier) : m.wtypeName.isEmpty = false := by cases m <;> decide

/-- The tokens that name the Super modifier, in lower case. -/
def superSpellings : List String := ["super", "win", "windows", "mod4", "cmd", "command"]

theorem parse_super_iff (token : String) :
    parse token = some .super ↔ Text.asciiLower token ∈ superSpellings := by
  rw [parse]
  constructor
  · intro read
    split at read
    · cases read
    · split at read
      · cases read
      · split at read
        · cases read
        · split at read
          · assumption
          · cases read
  · intro spelled
    generalize Text.asciiLower token = lower at spelled
    simp only [superSpellings, List.mem_cons, List.not_mem_nil, or_false] at spelled
    rcases spelled with rfl | rfl | rfl | rfl | rfl | rfl <;> decide

end Modifier

namespace KeyCombo

/-! ### What a parsed combo is made of -/

/-- The tokens of a combo, of which the last is the key. -/
def tokens (s : String) : List String := (Text.splitOn '+' (Text.trim s)).map Text.trim

def modifierTokens (s : String) : List String := (tokens s).dropLast

theorem mem_parseModifiers {trimmed : String} {names : List String} {modifiers : ModifierSet}
    (read : parseModifiers trimmed names = .ok modifiers) (m : Modifier) :
    m ∈ modifiers ↔ ∃ name ∈ names, Modifier.parse name = some m := by
  induction names generalizing modifiers with
  | nil =>
    cases read
    simp
  | cons name rest ih =>
    rw [parseModifiers] at read
    cases named : Modifier.parse name with
    | none =>
      rw [named] at read
      cases read
    | some first =>
      rw [named] at read
      cases others : parseModifiers trimmed rest with
      | error e =>
        rw [others] at read
        cases read
      | ok set =>
        rw [others] at read
        cases read
        rw [Finset.mem_insert, ih others, List.exists_mem_cons_iff, named, Option.some_inj, eq_comm]

theorem parseModifiers_names (trimmed : String) {modifiers : List Modifier}
    (plain : Modifier.super ∉ modifiers) :
    parseModifiers trimmed (modifiers.map Modifier.wtypeName) = .ok modifiers.toFinset := by
  induction modifiers with
  | nil => rfl
  | cons m rest ih =>
    rw [List.mem_cons, not_or] at plain
    rw [List.map_cons, parseModifiers, Modifier.parse_wtypeName (Ne.symm plain.1), ih plain.2,
      List.toFinset_cons]

theorem parseModifiers_unread (trimmed : String) {names : List String} {name : String}
    (member : name ∈ names) (unread : Modifier.parse name = none) (modifiers : ModifierSet) :
    parseModifiers trimmed names ≠ .ok modifiers := by
  induction names generalizing modifiers with
  | nil => cases member
  | cons first rest ih =>
    intro read
    rw [parseModifiers] at read
    rcases List.mem_cons.mp member with rfl | later
    · rw [unread] at read
      cases read
    · cases named : Modifier.parse first with
      | none =>
        rw [named] at read
        cases read
      | some m =>
        rw [named] at read
        cases others : parseModifiers trimmed rest with
        | error e =>
          rw [others] at read
          cases read
        | ok set => exact ih later set others

/-- A key that stands alone between the separators of a combo. -/
structure KeyToken (key : String) : Prop where
  clear : '+' ∉ key.toList
  trimmed : Text.Trimmed key
  inhabited : key.isEmpty = false

theorem inhabited_of_filled {s : String} (filled : (tokens s).any (·.isEmpty) = false) :
    (Text.trim s).isEmpty = false := by
  by_contra blank
  rw [Bool.not_eq_false, String.isEmpty_iff] at blank
  have gap : ((Text.splitOn '+' "").map Text.trim).any (·.isEmpty) = true := by decide
  rw [tokens, blank, gap] at filled
  cases filled

theorem parse_eq {s : String} (filled : (tokens s).any (·.isEmpty) = false) :
    parse s = (parseModifiers (Text.trim s) (modifierTokens s)).map
      fun modifiers => ⟨modifiers, (tokens s).getLastD ""⟩ := by
  have inhabited := inhabited_of_filled filled
  rw [tokens] at filled
  simp only [parse, inhabited, filled, Bool.false_eq_true, if_false, modifierTokens, tokens]
  cases parseModifiers (Text.trim s)
    ((Text.splitOn '+' (Text.trim s)).map Text.trim).dropLast <;> rfl

theorem filled_of_parse {s : String} {combo : KeyCombo} (read : parse s = .ok combo) :
    (tokens s).any (·.isEmpty) = false := by
  rw [tokens]
  by_cases blank : (Text.trim s).isEmpty = true
  · simp only [parse, blank, if_true, reduceCtorEq] at read
  · rw [Bool.not_eq_true] at blank
    by_cases gap : ((Text.splitOn '+' (Text.trim s)).map Text.trim).any (·.isEmpty) = true
    · simp only [parse, blank, gap, Bool.false_eq_true, if_false, if_true, reduceCtorEq] at read
    · exact Bool.not_eq_true _ ▸ gap

theorem parse_ok {s : String} {combo : KeyCombo} (read : parse s = .ok combo) :
    parseModifiers (Text.trim s) (modifierTokens s) = .ok combo.modifiers ∧
      (tokens s).getLastD "" = combo.key := by
  rw [parse_eq (filled_of_parse read)] at read
  cases named : parseModifiers (Text.trim s) (modifierTokens s) with
  | error e =>
    rw [named, Except.map] at read
    simp only [reduceCtorEq] at read
  | ok modifiers =>
    rw [named, Except.map] at read
    have same := Except.ok.inj read
    constructor
    · rw [← same]
    · rw [← same]

theorem tokens_ne_nil (s : String) : tokens s ≠ [] := by
  rw [tokens, Text.splitOn, List.splitOn_eq_splitOnP, Ne, List.map_eq_nil_iff, List.map_eq_nil_iff]
  exact List.splitOnP_ne_nil _ _

theorem keyToken_of_parse {s : String} {combo : KeyCombo} (read : parse s = .ok combo) :
    KeyToken combo.key := by
  have filled := filled_of_parse read
  have last := (parse_ok read).2
  have listed : combo.key ∈ tokens s := by
    rw [← last, List.getLastD_eq_getLast?, List.getLast?_eq_some_getLast (tokens_ne_nil s),
      Option.getD_some]
    exact List.getLast_mem _
  have inhabited := List.any_eq_false.mp filled _ listed
  rw [Bool.not_eq_true] at inhabited
  obtain ⟨piece, cut, shown⟩ := List.mem_map.mp listed
  rw [← shown] at inhabited ⊢
  have absent := Text.absent_of_mem_splitOn cut
  exact ⟨fun inside => absent (Text.mem_of_mem_trim inside), Text.trimmed_trim piece, inhabited⟩

theorem super_mem_iff {s : String} {combo : KeyCombo} (read : parse s = .ok combo) :
    Modifier.super ∈ combo.modifiers ↔
      ∃ token ∈ modifierTokens s, Text.asciiLower token ∈ Modifier.superSpellings := by
  rw [mem_parseModifiers (parse_ok read).1]
  simp only [Modifier.parse_super_iff]

/-! ### Reading the printed form -/

def chordText (names : List Modifier) (key : String) : String :=
  names.foldr (fun m rest => m.wtypeName ++ "+" ++ rest) key

theorem text_eq (combo : KeyCombo) : combo.text = chordText combo.modifiers.iter combo.key := rfl

theorem splitOn_chordText (names : List Modifier) {key : String} (token : KeyToken key) :
    Text.splitOn '+' (chordText names key) = names.map Modifier.wtypeName ++ [key] := by
  induction names with
  | nil => exact Text.splitOn_of_absent token.clear
  | cons m rest ih =>
    have cut := Text.splitOn_append m.wtypeName_clear (chordText rest key)
    rw [ih] at cut
    exact cut

theorem trimmed_chordText (names : List Modifier) {key : String} (token : KeyToken key) :
    Text.Trimmed (chordText names key) := by
  induction names with
  | nil => exact token.trimmed
  | cons m rest ih =>
    have plus : Text.Trimmed "+" := by
      constructor <;> intro c shown <;> cases shown <;> rfl
    exact (m.wtypeName_trimmed.append plus).append ih

theorem tokens_chordText (names : List Modifier) {key : String} (token : KeyToken key) :
    tokens (chordText names key) = names.map Modifier.wtypeName ++ [key] := by
  rw [tokens, Text.trim_of_trimmed (trimmed_chordText names token), splitOn_chordText names token]
  refine (List.map_congr_left fun piece listed => ?_).trans (List.map_id _)
  rw [id]
  rcases List.mem_append.mp listed with name | last
  · obtain ⟨m, -, rfl⟩ := List.mem_map.mp name
    exact Text.trim_of_trimmed m.wtypeName_trimmed
  · rw [List.mem_singleton.mp last]
    exact Text.trim_of_trimmed token.trimmed

theorem modifierTokens_chordText (names : List Modifier) {key : String} (token : KeyToken key) :
    modifierTokens (chordText names key) = names.map Modifier.wtypeName := by
  rw [modifierTokens, tokens_chordText names token, List.dropLast_concat]

theorem parse_chordText {names : List Modifier} {key : String} (token : KeyToken key)
    (plain : Modifier.super ∉ names) : parse (chordText names key) = .ok ⟨names.toFinset, key⟩ := by
  have filled : (tokens (chordText names key)).any (·.isEmpty) = false := by
    rw [tokens_chordText names token, List.any_eq_false]
    intro piece listed
    rw [Bool.not_eq_true]
    rcases List.mem_append.mp listed with name | last
    · obtain ⟨m, -, rfl⟩ := List.mem_map.mp name
      exact m.wtypeName_inhabited
    · rw [List.mem_singleton.mp last]
      exact token.inhabited
  rw [parse_eq filled, modifierTokens_chordText names token, parseModifiers_names _ plain,
    tokens_chordText names token, List.getLastD_concat]
  rfl

/-- A printed combo reads back as itself unless it holds Super, which prints as `logo`. -/
theorem text_roundtrip_iff {s : String} {combo : KeyCombo} (read : parse s = .ok combo) :
    parse combo.text = .ok combo ↔
      ∀ token ∈ modifierTokens s, Text.asciiLower token ∉ Modifier.superSpellings := by
  have token := keyToken_of_parse read
  have plain : Modifier.super ∉ combo.modifiers ↔
      ∀ token ∈ modifierTokens s, Text.asciiLower token ∉ Modifier.superSpellings := by
    rw [super_mem_iff read]
    simp
  rw [← plain, text_eq]
  constructor
  · intro again held
    have unread : Modifier.wtypeName .super ∈ modifierTokens (chordText combo.modifiers.iter combo.key) := by
      rw [modifierTokens_chordText _ token]
      exact List.mem_map_of_mem (ModifierSet.mem_iter.mpr held)
    exact parseModifiers_unread _ unread Modifier.parse_wtypeName_super _ (parse_ok again).1
  · intro free
    rw [parse_chordText token (fun listed => free (ModifierSet.mem_iter.mp listed)),
      ModifierSet.iter_toFinset]

theorem text_roundtrip_ctrl : parse (text ⟨{.ctrl, .shift}, "t"⟩) = .ok ⟨{.ctrl, .shift}, "t"⟩ ∧
    parse (text ⟨{.super}, "t"⟩) ≠ .ok ⟨{.super}, "t"⟩ := by
  have plain := text_roundtrip_iff (show parse "ctrl+shift+t" = .ok ⟨{.ctrl, .shift}, "t"⟩ by decide)
  have held := text_roundtrip_iff (show parse "super+t" = .ok ⟨{.super}, "t"⟩ by decide)
  exact ⟨plain.mpr (by decide), fun again => held.mp again "super" (by decide) (by decide)⟩

/-- `super+space` prints as `logo+space`, which the parser does not know. -/
theorem super_not_reparsed : parse "super+space" = .ok ⟨{.super}, "space"⟩ ∧
    text ⟨{.super}, "space"⟩ = "logo+space" ∧
      parse (text ⟨{.super}, "space"⟩) = .error (.invalidCombo
        ("`logo` in `logo+space` is not a recognised modifier; " ++
          "expected ctrl, shift, alt, or super")) := by decide

end KeyCombo

end HyprPilot
