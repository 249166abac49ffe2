import HyprPilot.Core.Connection
import HyprPilot.Daemon.Binds
import HyprPilot.Input.KeyText
import Mathlib.Data.Nat.Bitwise

/-!
# The keybind that a chord resolves to

`run_bind` compares modifiers by name, after the bit mask of each bind was decoded. The decoding
knows four of the bits, so a bind on any other modifier passes for one without it.
-/

namespace HyprPilot
open Interact

/-! ### Masks -/

/-- The place of the modifier in Hyprland's mask: Shift 1, Ctrl 4, Alt 8, Super 64. -/
def Modifier.place : Modifier → Nat
  | .shift => 0
  | .ctrl => 2
  | .alt => 3
  | .super => 6

def KeyCombo.mask (combo : KeyCombo) : Nat :=
  combo.modifiers.iter.foldr (fun m rest => 2 ^ m.place ||| rest) 0

namespace Binds

/-- The bits that the decoding names. -/
def chordBits : Nat := 1 ||| 4 ||| 8 ||| 64

/-- Caps and NumLock. -/
def lockBits : Nat := 2 ||| 16

def withoutLocks (mask : Nat) : Nat := mask ^^^ (mask &&& lockBits)

theorem chordBits_testBit (i : Nat) : chordBits.testBit i = true ↔ ∃ m : Modifier, m.place = i := by
  have bits : chordBits = 2 ^ 0 ||| 2 ^ 2 ||| 2 ^ 3 ||| 2 ^ 6 := rfl
  simp only [bits, Nat.testBit_or, Nat.testBit_two_pow, Bool.or_eq_true, decide_eq_true_iff]
  constructor
  · rintro (((rfl | rfl) | rfl) | rfl)
    · exact ⟨.shift, rfl⟩
    · exact ⟨.ctrl, rfl⟩
    · exact ⟨.alt, rfl⟩
    · exact ⟨.super, rfl⟩
  · rintro ⟨m, rfl⟩
    cases m <;> decide

theorem place_inj {m n : Modifier} (same : m.place = n.place) : m = n := by
  cases m <;> cases n <;> first | rfl | exact absurd same (by decide)

theorem mask_testBit (combo : KeyCombo) (i : Nat) :
    combo.mask.testBit i = true ↔ ∃ m ∈ combo.modifiers, m.place = i := by
  have listed (modifiers : List Modifier) :
      (modifiers.foldr (fun (m : Modifier) rest => 2 ^ m.place ||| rest) 0).testBit i = true ↔
        ∃ m ∈ modifiers, m.place = i := by
    induction modifiers with
    | nil => simp
    | cons m rest ih =>
      rw [List.foldr_cons, Nat.testBit_or, Bool.or_eq_true, ih, Nat.testBit_two_pow,
        decide_eq_true_iff, List.exists_mem_cons_iff]
  rw [KeyCombo.mask, listed]
  simp only [ModifierSet.mem_iter]

theorem mask_place (combo : KeyCombo) (m : Modifier) :
    combo.mask.testBit m.place = true ↔ m ∈ combo.modifiers := by
  rw [mask_testBit]
  constructor
  · rintro ⟨n, held, same⟩
    rw [← place_inj same]
    exact held
  · intro held
    exact ⟨m, held, rfl⟩

theorem chord_of_mask {combo : KeyCombo} {i : Nat} (set : combo.mask.testBit i = true) :
    chordBits.testBit i = true := by
  obtain ⟨m, -, place⟩ := (mask_testBit combo i).mp set
  exact (chordBits_testBit i).mpr ⟨m, place⟩

theorem mem_decodeMods (mask : Nat) (m : Modifier) :
    m.hyprctlName ∈ Bind.decodeMods mask ↔ mask.testBit m.place = true := by
  have bit (i : Nat) : mask &&& 2 ^ i ≠ 0 ↔ mask.testBit i = true := by
    rw [Nat.and_two_pow]
    cases mask.testBit i <;> simp
  have shift : mask &&& 1 ≠ 0 ↔ mask.testBit 0 = true := bit 0
  have ctrl : mask &&& 4 ≠ 0 ↔ mask.testBit 2 = true := bit 2
  have alt : mask &&& 8 ≠ 0 ↔ mask.testBit 3 = true := bit 3
  have super : mask &&& 64 ≠ 0 ↔ mask.testBit 6 = true := bit 6
  simp only [Bind.decodeMods, shift, ctrl, alt, super]
  cases m <;>
    simp only [Modifier.hyprctlName, Modifier.place, List.mem_append] <;>
    generalize mask.testBit 0 = b0 <;> generalize mask.testBit 2 = b2 <;>
    generalize mask.testBit 3 = b3 <;> generalize mask.testBit 6 = b6 <;>
    revert b0 b2 b3 b6 <;> decide

theorem decodeMods_named {mask : Nat} {name : String} (listed : name ∈ Bind.decodeMods mask) :
    ∃ m : Modifier, m.hyprctlName = name := by
  have named (b : Prop) [Decidable b] (m : Modifier)
      (inPart : name ∈ if b then [m.hyprctlName] else []) : m.hyprctlName = name := by
    split at inPart
    · exact (List.mem_singleton.mp inPart).symm
    · cases inPart
  rw [Bind.decodeMods, List.mem_append, List.mem_append, List.mem_append] at listed
  rcases listed with ((shift | ctrl) | alt) | super
  · exact ⟨.shift, named _ .shift shift⟩
  · exact ⟨.ctrl, named _ .ctrl ctrl⟩
  · exact ⟨.alt, named _ .alt alt⟩
  · exact ⟨.super, named _ .super super⟩

theorem mem_comboModSet (combo : KeyCombo) (m : Modifier) :
    m.hyprctlName ∈ comboModSet combo ↔ m ∈ combo.modifiers := by
  rw [comboModSet, List.mem_map_of_injective fun _ _ => Modifier.hyprctlName_inj, ModifierSet.mem_iter]

/-- The decoded names are those of the combo exactly when the four named bits are the combo's. -/
theorem decodeMods_eq_iff (mask : Nat) (combo : KeyCombo) :
    (Bind.decodeMods mask).toFinset = (comboModSet combo).toFinset ↔ mask &&& chordBits = combo.mask := by
  constructor
  · intro same
    have held (m : Modifier) : mask.testBit m.place = true ↔ combo.mask.testBit m.place = true := by
      rw [← mem_decodeMods, ← List.mem_toFinset, same, List.mem_toFinset, mem_comboModSet, mask_place]
    apply Nat.eq_of_testBit_eq
    intro i
    rw [Nat.testBit_and, Bool.eq_iff_iff, Bool.and_eq_true]
    constructor
    · rintro ⟨set, chord⟩
      obtain ⟨m, rfl⟩ := (chordBits_testBit i).mp chord
      exact (held m).mp set
    · intro set
      have chord := chord_of_mask set
      obtain ⟨m, rfl⟩ := (chordBits_testBit i).mp chord
      exact ⟨(held m).mpr set, chord⟩
  · intro same
    have held (m : Modifier) : m.hyprctlName ∈ Bind.decodeMods mask ↔ m.hyprctlName ∈ comboModSet combo := by
      rw [mem_decodeMods, mem_comboModSet, ← mask_place, ← same, Nat.testBit_and, Bool.and_eq_true]
      exact (and_iff_left ((chordBits_testBit _).mpr ⟨m, rfl⟩)).symm
    ext name
    rw [List.mem_toFinset, List.mem_toFinset]
    constructor
    · intro listed
      obtain ⟨m, rfl⟩ := decodeMods_named listed
      exact (held m).mp listed
    · intro listed
      obtain ⟨m, -, rfl⟩ := List.mem_map.mp listed
      exact (held m).mpr listed

theorem withoutLocks_eq_iff (mask : Nat) (combo : KeyCombo) :
    withoutLocks mask = combo.mask ↔
      mask &&& chordBits = combo.mask ∧ mask &&& (chordBits ||| lockBits) = mask := by
  have apart (i : Nat) : (chordBits.testBit i && lockBits.testBit i) = false := by
    rw [← Nat.testBit_and]
    exact Nat.zero_testBit i
  have chord (i : Nat) : combo.mask.testBit i = true → chordBits.testBit i = true := chord_of_mask
  constructor
  · intro same
    have bits (i : Nat) := congrArg (fun n => n.testBit i) same
    constructor
    all_goals
      apply Nat.eq_of_testBit_eq
      intro i
      have bit := bits i
      have known := chord i
      have split := apart i
      simp only [withoutLocks, Nat.testBit_xor, Nat.testBit_and, Nat.testBit_or] at bit ⊢
      generalize mask.testBit i = a at bit ⊢
      generalize combo.mask.testBit i = c at bit known ⊢
      generalize chordBits.testBit i = d at known split ⊢
      generalize lockBits.testBit i = e at bit split ⊢
      revert a c d e
      decide
  · rintro ⟨named, known⟩
    apply Nat.eq_of_testBit_eq
    intro i
    have bit := congrArg (fun n => n.testBit i) named
    have whole := congrArg (fun n => n.testBit i) known
    have split := apart i
    simp only [withoutLocks, Nat.testBit_xor, Nat.testBit_and, Nat.testBit_or] at bit whole ⊢
    generalize mask.testBit i = a at bit whole ⊢
    generalize combo.mask.testBit i = c at bit ⊢
    generalize chordBits.testBit i = d at bit whole split
    generalize lockBits.testBit i = e at whole split ⊢
    revert a c d e
    decide

/-! ### The chosen bind -/

/-- A keyboard bind of the submap on the combo's key. -/
def OnKey (combo : KeyCombo) (submap : Option String) (bind : Bind) : Prop :=
  bind.mouse = false ∧ submapOk bind submap = true ∧
    Text.asciiLower bind.key = Text.asciiLower combo.key

/-- The bind is on the combo: the lock bits aside, its mask is the mask of the combo. -/
def OnChord (combo : KeyCombo) (submap : Option String) (bind : Bind) : Prop :=
  OnKey combo submap bind ∧ withoutLocks bind.modmask = combo.mask

/-- The bits of the four named modifiers are those of the combo, whatever the others are. -/
def OnNamed (combo : KeyCombo) (submap : Option String) (bind : Bind) : Prop :=
  OnKey combo submap bind ∧ bind.modmask &&& chordBits = combo.mask

def Known (bind : Bind) : Prop := bind.modmask &&& (chordBits ||| lockBits) = bind.modmask

theorem onChord_iff (combo : KeyCombo) (submap : Option String) (bind : Bind) :
    OnChord combo submap bind ↔ OnNamed combo submap bind ∧ Known bind := by
  rw [OnChord, OnNamed, withoutLocks_eq_iff, and_assoc, Known]

theorem bindMatches_iff {bind : Bind} (decoded : bind.mods = Bind.decodeMods bind.modmask)
    (combo : KeyCombo) (submap : Option String) :
    bindMatches bind combo submap = true ↔ OnNamed combo submap bind := by
  rw [bindMatches, decoded, OnNamed, OnKey, ← decodeMods_eq_iff]
  simp only [Bool.and_eq_true, Bool.not_eq_true', beq_iff_eq, and_assoc]

/-- What `run_bind` asks for: the first bind of the list on the chord, if there is one. -/
def FirstOnChord (binds : List Bind) (combo : KeyCombo) (submap : Option String) : Option Bind → Prop
  | some bind => OnChord combo submap bind ∧
      ∃ before after, binds = before ++ bind :: after ∧ ∀ b ∈ before, ¬OnChord combo submap b
  | none => ∀ b ∈ binds, ¬OnChord combo submap b

theorem binds_decoded {trace : List (Sigma Connection.Ans)} {binds : List Bind}
    (returned : Prog.Run Connection.binds trace (.ok binds)) :
    ∀ b ∈ binds, b.mods = Bind.decodeMods b.modmask := by
  obtain ⟨answer, rest, rfl, after⟩ := Prog.run_ask.mp returned
  cases answer with
  | error e =>
    obtain ⟨-, same⟩ := Prog.run_ret.mp after
    cases same
  | ok raw =>
    obtain ⟨-, same⟩ := Prog.run_ret.mp after
    rw [Except.ok.inj same]
    intro b listed
    obtain ⟨a, -, rfl⟩ := List.mem_map.mp listed
    rfl

theorem resolve_firstOnNamed {binds : List Bind}
    (decoded : ∀ b ∈ binds, b.mods = Bind.decodeMods b.modmask) {combo : KeyCombo}
    {submap : Option String} {bind : Bind} :
    resolve binds combo submap = some bind ↔ OnNamed combo submap bind ∧
      ∃ before after, binds = before ++ bind :: after ∧ ∀ b ∈ before, ¬OnNamed combo submap b := by
  rw [resolve, List.find?_eq_some_iff_append]
  constructor
  · rintro ⟨fires, before, after, rfl, others⟩
    refine ⟨(bindMatches_iff (decoded bind (by simp)) combo submap).mp fires, before, after, rfl, ?_⟩
    intro b listed named
    have unmatched := others b listed
    rw [(bindMatches_iff (decoded b (by simp [listed])) combo submap).mpr named] at unmatched
    cases unmatched
  · rintro ⟨named, before, after, rfl, others⟩
    refine ⟨(bindMatches_iff (decoded bind (by simp)) combo submap).mpr named, before, after, rfl, ?_⟩
    intro b listed
    rw [Bool.not_eq_true', ← Bool.not_eq_true]
    exact fun fires =>
      others b listed ((bindMatches_iff (decoded b (by simp [listed])) combo submap).mp fires)

/-- The resolved bind is the first on the chord exactly when the first bind whose named bits are
the combo's has no modifier bit but the named ones and the locks. -/
theorem resolve_firstOnChord_iff {trace : List (Sigma Connection.Ans)} {binds : List Bind}
    (returned : Prog.Run Connection.binds trace (.ok binds)) (combo : KeyCombo)
    (submap : Option String) :
    FirstOnChord binds combo submap (resolve binds combo submap) ↔
      ∀ before bind after, binds = before ++ bind :: after → OnNamed combo submap bind →
        (∀ b ∈ before, ¬OnNamed combo submap b) → Known bind := by
  have decoded := binds_decoded returned
  cases found : resolve binds combo submap with
  | none =>
    have absent (b : Bind) (listed : b ∈ binds) : ¬OnNamed combo submap b := by
      intro named
      have unmatched := List.find?_eq_none.mp found b listed
      exact unmatched ((bindMatches_iff (decoded b listed) combo submap).mpr named)
    constructor
    · rintro - before bind after rfl named -
      exact absurd named (absent bind (by simp))
    · intro _ b listed chord
      exact absent b listed ((onChord_iff combo submap b).mp chord).1
  | some chosen =>
    obtain ⟨named, before, after, whole, others⟩ := (resolve_firstOnNamed decoded).mp found
    constructor
    · rintro ⟨chord, -⟩ front bind back shape bindNamed bindFirst
      have again := (resolve_firstOnNamed decoded).mpr ⟨bindNamed, front, back, shape, bindFirst⟩
      rw [found] at again
      cases again
      exact ((onChord_iff combo submap chosen).mp chord).2
    · intro known
      refine ⟨(onChord_iff combo submap chosen).mpr ⟨named, known before chosen after whole named others⟩,
        before, after, whole, ?_⟩
      intro b listed chord
      exact others b listed ((onChord_iff combo submap b).mp chord).1

/-- `ctrl+shift+t`, then `ctrl+t` under Caps, then two binds that it shadows: `ctrl+t` under NumLock
and `ctrl+mod5+t`, where the mask has the bit 128. -/
def lockBinds : List Bind :=
  [⟨["SHIFT", "CTRL"], 5, "t", "", "exec", "reboot", false⟩,
    ⟨["CTRL"], 6, "T", "global", "exec", "kitty", false⟩,
    ⟨["CTRL"], 20, "t", "", "exec", "foot", false⟩,
    ⟨["CTRL"], 132, "t", "", "exec", "reboot", false⟩]

theorem resolve_ctrl_chord :
    resolve lockBinds ⟨{.ctrl}, "t"⟩ none =
        some ⟨["CTRL"], 6, "T", "global", "exec", "kitty", false⟩ ∧
      FirstOnChord lockBinds ⟨{.ctrl}, "t"⟩ none (resolve lockBinds ⟨{.ctrl}, "t"⟩ none) := by
  have returned : Prog.Run Connection.binds [⟨.query .binds, .ok lockBinds⟩] (.ok lockBinds) :=
    Prog.run_ask.mpr ⟨Except.ok lockBinds, [], rfl, Prog.run_ret.mpr ⟨rfl, rfl⟩⟩
  have chosen : resolve lockBinds ⟨{.ctrl}, "t"⟩ none =
      some ⟨["CTRL"], 6, "T", "global", "exec", "kitty", false⟩ := by decide
  refine ⟨chosen, (resolve_firstOnChord_iff returned ⟨{.ctrl}, "t"⟩ none).mpr ?_⟩
  intro before bind after whole named first
  have again := (resolve_firstOnNamed (binds_decoded returned)).mpr ⟨named, before, after, whole, first⟩
  rw [chosen] at again
  rw [← Option.some.inj again]
  rfl

/-- `mod5+t`, where the mask has the bit 128, before a plain `t`. -/
def mod5Binds : List Bind :=
  [⟨[], 128, "t", "", "exec", "reboot", false⟩, ⟨[], 0, "t", "", "exec", "kitty", false⟩]

/-- The chord `t` runs the action of `mod5+t`, although a bind on plain `t` follows. -/
theorem resolve_runs_mod5 :
    Prog.Run Connection.binds [⟨.query .binds, .ok mod5Binds⟩] (.ok mod5Binds) ∧
    KeyCombo.parse "t" = .ok ⟨∅, "t"⟩ ∧
    resolve mod5Binds ⟨∅, "t"⟩ none = some ⟨[], 128, "t", "", "exec", "reboot", false⟩ ∧
      ¬FirstOnChord mod5Binds ⟨∅, "t"⟩ none (resolve mod5Binds ⟨∅, "t"⟩ none) := by
  have chosen : resolve mod5Binds ⟨∅, "t"⟩ none =
      some ⟨[], 128, "t", "", "exec", "reboot", false⟩ := by decide
  refine ⟨Prog.run_ask.mpr ⟨Except.ok mod5Binds, [], rfl, Prog.run_ret.mpr ⟨rfl, rfl⟩⟩,
    by decide, chosen, ?_⟩
  rw [chosen]
  intro first
  exact absurd first.1.2 (by decide)

end Binds

end HyprPilot
