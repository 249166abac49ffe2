import HyprPilot.Base.Decimal
import HyprPilot.Base.Pieces
import HyprPilot.Core.Selector

/-!
# The two texts of a window selector

What `encode` writes, `parse` reads back as the same selector, whatever its class, title, tag or
address spells; an address comes back with its `0x`.
-/

namespace HyprPilot

namespace WindowSelector

def InI32 : WindowSelector → Prop
  | .pid p => Machine.InI32 p
  | _ => True

/-- The selector with the address in the form that Hyprland prints. -/
def withHex : WindowSelector → WindowSelector
  | .address a => .address (if Text.startsWith "0x" a then a else "0x" ++ a)
  | sel => sel

theorem encode_withHex (sel : WindowSelector) : sel.withHex.encode = sel.encode := by
  cases sel with
  | address a =>
    rw [withHex, encode, encode]
    by_cases hex : Text.startsWith "0x" a = true
    · rw [if_pos hex, if_pos hex]
    · rw [if_neg hex, if_neg hex, if_pos (Text.startsWith_append _ _), ← String.append_assoc]
      rfl
  | _ => rfl

theorem encode_address (a : String) :
    (address a).encode = "address" ++ ":" ++ (if Text.startsWith "0x" a then a else "0x" ++ a) := by
  rw [encode]
  by_cases hex : Text.startsWith "0x" a = true
  · rw [if_pos hex, if_pos hex]
    rfl
  · rw [if_neg hex, if_neg hex, ← String.append_assoc]
    rfl

theorem cut_prefixed {s k v : String} (shape : s = k ++ ":" ++ v) (clear : ':' ∉ k.toList) :
    ¬(s = "active" ∨ s = "activewindow") ∧ Text.splitOnce ":" s = some (k, v) := by
  have colon : ':' ∈ s.toList := by simp [shape]
  constructor
  · rintro (same | same)
    · rw [same] at colon
      exact absurd colon (by decide)
    · rw [same] at colon
      exact absurd colon (by decide)
  · rw [shape]
    exact Text.splitOnce_append clear v

/-- The argument form reads back as the selector. -/
theorem parse_encode {sel : WindowSelector} (fits : sel.InI32) : parse sel.encode = .ok sel.withHex := by
  cases sel with
  | address a =>
    obtain ⟨named, cut⟩ := cut_prefixed (encode_address a) (by decide : ':' ∉ "address".toList)
    rw [parse, if_neg named, cut]
    rfl
  | pid p =>
    obtain ⟨named, cut⟩ := cut_prefixed (show encode (.pid p) = "pid" ++ ":" ++ toString p from rfl)
      (by decide)
    rw [parse, if_neg named, cut]
    simp only [String.reduceEq, if_false, if_true, Text.parseI32_toString fits, withHex]
  | className c =>
    obtain ⟨named, cut⟩ := cut_prefixed (show encode (.className c) = "class" ++ ":" ++ c from rfl)
      (by decide)
    rw [parse, if_neg named, cut]
    rfl
  | title t =>
    obtain ⟨named, cut⟩ := cut_prefixed (show encode (.title t) = "title" ++ ":" ++ t from rfl)
      (by decide)
    rw [parse, if_neg named, cut]
    rfl
  | tag t =>
    obtain ⟨named, cut⟩ := cut_prefixed (show encode (.tag t) = "tag" ++ ":" ++ t from rfl)
      (by decide)
    rw [parse, if_neg named, cut]
    rfl
  | active => decide

theorem withHex_eq_of_encode {sel other : WindowSelector} (fits : sel.InI32) (otherFits : other.InI32)
    (same : sel.encode = other.encode) : sel.withHex = other.withHex := by
  have read := parse_encode fits
  rw [same, parse_encode otherFits] at read
  exact (Except.ok.inj read).symm

theorem inI32_of_parse {s : String} {sel : WindowSelector} (read : parse s = .ok sel) : sel.InI32 := by
  cases sel with
  | pid p =>
    unfold parse at read
    split at read
    · cases read
    · split at read
      · cases read
      · split at read
        · cases read
        · split at read
          · split at read
            · rename_i parsed
              cases read
              exact Text.parseI32_inI32 parsed
            · cases read
          · split at read
            · cases read
            · split at read
              · cases read
              · split at read <;> cases read
  | _ => trivial

/-- Every selector is read back from its argument form, with the same argument form, and so is
every selector that was read from some text. -/
theorem encode_faithful :
    (∀ sel : WindowSelector, sel.InI32 →
      parse sel.encode = .ok sel.withHex ∧ sel.withHex.encode = sel.encode) ∧
      ∀ s sel, parse s = .ok sel → parse sel.encode = .ok sel.withHex :=
  ⟨fun sel fits => ⟨parse_encode fits, encode_withHex sel⟩,
    fun _ _ read => parse_encode (inI32_of_parse read)⟩

theorem title_faithful : parse (title "pid:7: active").encode = .ok (title "pid:7: active") :=
  (encode_faithful.1 (title "pid:7: active") trivial).1

end WindowSelector

end HyprPilot
