import HyprPilot.Core.SelectorText
import HyprPilot.Daemon.Quiet
import HyprPilot.Daemon.WorkspaceArgs
import HyprPilot.Input.KeyText

/-!
# The payload of `sendshortcut`

Hyprland cuts the argument of `sendshortcut` at its first two commas, into the modifiers, the key
and the window. The payload that the daemon builds is cut back into what it was built from when
the key has no comma in it.
-/

namespace HyprPilot
open Interact

namespace KeyCombo

theorem encodeHyprctlMods_clear (combo : KeyCombo) : ',' ∉ combo.encodeHyprctlMods.toList := by
  intro inside
  rcases Text.mem_joinWith inside with inSep | ⟨name, listed, inName⟩
  · exact absurd inSep (by decide)
  · obtain ⟨m, -, rfl⟩ := List.mem_map.mp listed
    exact m.hyprctlName_clear.1 inName

theorem mem_encodeHyprctlMods (combo : KeyCombo) (m : Modifier) :
    m.hyprctlName ∈ Text.splitOn ' ' combo.encodeHyprctlMods ↔ m ∈ combo.modifiers := by
  rw [← ModifierSet.mem_iter, encodeHyprctlMods]
  cases named : combo.modifiers.iter with
  | nil =>
    have blank : Text.splitOn ' ' (Text.joinWith " " (([] : List Modifier).map Modifier.hyprctlName)) =
        [""] := by decide
    rw [blank, List.mem_singleton]
    exact iff_of_false m.hyprctlName_inhabited List.not_mem_nil
  | cons first rest =>
    have clear : ∀ piece ∈ (first :: rest).map Modifier.hyprctlName, ' ' ∉ piece.toList := by
      intro piece listed
      obtain ⟨n, -, rfl⟩ := List.mem_map.mp listed
      exact n.hyprctlName_clear.2
    have spaced : Text.splitOn ' ' (Text.joinWith " " ((first :: rest).map Modifier.hyprctlName)) =
        (first :: rest).map Modifier.hyprctlName :=
      Text.splitOn_joinWith (List.cons_ne_nil _ _) clear
    rw [spaced, List.mem_map_of_injective fun _ _ => Modifier.hyprctlName_inj]

theorem encodeHyprctlMods_inj {combo other : KeyCombo}
    (same : combo.encodeHyprctlMods = other.encodeHyprctlMods) : combo.modifiers = other.modifiers := by
  ext m
  rw [← mem_encodeHyprctlMods, same, mem_encodeHyprctlMods]

end KeyCombo

/-! ### The payload -/

/-- Hyprland's reading of `MODS,KEY,WINDOW`. -/
def splitShortcut (payload : String) : Option (String × String × String) := do
  let (mods, rest) ← Text.splitOnce "," payload
  let (key, window) ← Text.splitOnce "," rest
  return (mods, key, window)

def shortcutPayload (combo : KeyCombo) (selector : WindowSelector) : String :=
  combo.encodeHyprctlMods ++ "," ++ combo.key ++ "," ++ selector.encode

theorem sendShortcut_encode (combo : KeyCombo) (selector : WindowSelector) :
    (Dispatcher.sendShortcut combo.encodeHyprctlMods combo.key selector).encode =
      "sendshortcut " ++ shortcutPayload combo selector := by
  unfold Dispatcher.encode shortcutPayload
  generalize combo.encodeHyprctlMods = mods
  simp only [String.append_assoc]

theorem splitOnce_comma {s : String} (clear : ',' ∉ s.toList) (t : String) :
    Text.splitOnce "," (s ++ "," ++ t) = some (s, t) := Text.splitOnce_append clear t

theorem splitShortcut_of_clear {combo : KeyCombo} (clear : ',' ∉ combo.key.toList)
    (selector : WindowSelector) :
    splitShortcut (shortcutPayload combo selector) =
      some (combo.encodeHyprctlMods, combo.key, selector.encode) := by
  have shape : shortcutPayload combo selector =
      combo.encodeHyprctlMods ++ "," ++ (combo.key ++ "," ++ selector.encode) := by
    simp only [shortcutPayload, String.append_assoc]
  have first := splitOnce_comma combo.encodeHyprctlMods_clear (combo.key ++ "," ++ selector.encode)
  have second := splitOnce_comma clear selector.encode
  rw [splitShortcut, shape, first, Option.bind_eq_bind, Option.bind_some]
  dsimp only
  rw [second]
  rfl

theorem clear_of_splitShortcut {payload mods key window : String}
    (cut : splitShortcut payload = some (mods, key, window)) : ',' ∉ key.toList := by
  obtain ⟨⟨front, rest⟩, -, inner⟩ := Option.bind_eq_some_iff.mp cut
  obtain ⟨⟨middle, back⟩, second, shown⟩ := Option.bind_eq_some_iff.mp inner
  cases shown
  exact Text.splitOnce_clear second

/-- The one command that the request sends, with the payload behind the verb. -/
def Sends (P : String → Prop) {κ : Type} : Daemon.Cmd κ → Prop
  | .cache (.hypr (.dispatch d)) => ∃ payload, Text.stripPrefix "sendshortcut " d.encode = some payload ∧ P payload
  | _ => False

theorem inputShortcut_sends {κ : Type} {state : Daemon.State κ} (enabled : state.inputEnabled = true)
    (P : String → Prop) (combo : KeyCombo) (selector : WindowSelector) :
    (Daemon.inputShortcut state combo selector).Asks (Sends P) ↔ P (shortcutPayload combo selector) := by
  have payload := Text.stripPrefix_append "sendshortcut " (shortcutPayload combo selector)
  rw [← sendShortcut_encode] at payload
  rw [Daemon.inputShortcut, Daemon.gated, if_pos enabled]
  constructor
  · intro asks
    obtain ⟨sent, read, holds⟩ := asks.1
    rw [payload] at read
    cases read
    exact holds
  · intro holds
    refine ⟨⟨_, payload, holds⟩, ?_⟩
    intro x
    cases x <;> trivial

/-- With the input gate open, the request sends one command. Cut at its first two commas, that
command gives the modifiers, the key and the selector back when the key has no comma, and not
otherwise; payloads of such combos are equal only if all three parts are. -/
theorem shortcut_payload_iff (combo other : KeyCombo) {selectorText otherSelectorText : String}
    {selector otherSelector : WindowSelector}
    (readSelector : WindowSelector.parse selectorText = .ok selector)
    (readOtherSelector : WindowSelector.parse otherSelectorText = .ok otherSelector)
    {κ : Type} {state : Daemon.State κ} (enabled : state.inputEnabled = true) :
    ((Daemon.inputShortcut state combo selector).Asks (Sends fun payload =>
      splitShortcut payload = some (combo.encodeHyprctlMods, combo.key, selector.encode)) ↔
        ',' ∉ combo.key.toList) ∧
      (',' ∉ combo.key.toList → ',' ∉ other.key.toList →
        (shortcutPayload combo selector = shortcutPayload other otherSelector ↔
          combo.modifiers = other.modifiers ∧ combo.key = other.key ∧
            selector.withHex = otherSelector.withHex)) := by
  constructor
  · rw [inputShortcut_sends enabled]
    exact ⟨clear_of_splitShortcut, fun clear => splitShortcut_of_clear clear selector⟩
  · intro clear otherClear
    constructor
    · intro same
      have parts := splitShortcut_of_clear clear selector
      rw [same, splitShortcut_of_clear otherClear otherSelector] at parts
      simp only [Option.some.injEq, Prod.mk.injEq] at parts
      obtain ⟨mods, key, window⟩ := parts
      have fits := WindowSelector.inI32_of_parse readSelector
      have otherFits := WindowSelector.inI32_of_parse readOtherSelector
      exact ⟨(KeyCombo.encodeHyprctlMods_inj mods).symm, key.symm,
        WindowSelector.withHex_eq_of_encode fits otherFits window.symm⟩
    · intro same
      obtain ⟨modifiers, key, window⟩ := same
      have encoded : selector.encode = otherSelector.encode := by
        rw [← selector.encode_withHex, window, otherSelector.encode_withHex]
      rw [shortcutPayload, shortcutPayload, KeyCombo.encodeHyprctlMods, modifiers, key, encoded,
        KeyCombo.encodeHyprctlMods]

theorem shortcut_payload_firefox : (Daemon.inputShortcut Daemon.openState ⟨{.ctrl}, "t"⟩
    (.className "fire,fox")).Asks (Sends fun payload =>
      splitShortcut payload = some ("CTRL", "t", "class:fire,fox")) := by
  have whole := shortcut_payload_iff ⟨{.ctrl}, "t"⟩ ⟨∅, "t"⟩
    (show WindowSelector.parse "class:fire,fox" = .ok (.className "fire,fox") by decide)
    (show WindowSelector.parse "active" = .ok .active by decide)
    (show Daemon.openState.inputEnabled = true from rfl)
  exact whole.1.mpr (by decide)

/-- The comma key is cut away, and two requests for different keys and windows send one text. -/
theorem shortcut_comma_misread :
    KeyCombo.parse "ctrl+," = .ok ⟨{.ctrl}, ","⟩ ∧
      splitShortcut (shortcutPayload ⟨{.ctrl}, ","⟩ (.className "firefox")) =
        some ("CTRL", "", ",class:firefox") ∧
      KeyCombo.parse "t,class:x" = .ok ⟨∅, "t,class:x"⟩ ∧
      shortcutPayload ⟨∅, "t,class:x"⟩ (.title "y") =
        shortcutPayload ⟨∅, "t"⟩ (.className "x,title:y") := by decide

end HyprPilot
