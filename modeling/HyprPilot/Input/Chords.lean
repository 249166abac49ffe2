import HyprPilot.Base.Decimal
import HyprPilot.Base.Presses
import HyprPilot.Input.KeyText

/-!
# A combo as the backends are given it

`wtype` takes the names of modifiers and key, `ydotool` a list of key codes to press and release. Both
are read back here by the rules that the tools document, as presses and releases, and both strike the
combo's key with its modifiers held.
-/

namespace HyprPilot
open Presses

namespace Modifier

/-- The left variant's code. -/
def ydotoolKeycode : Modifier → Nat
  | .ctrl => 29
  | .shift => 42
  | .alt => 56
  | .super => 125

end Modifier

/-- In the order of the keyboard's rows. -/
def letterCodes : List (Char × Nat) :=
  [('a', 30), ('b', 48), ('c', 46), ('d', 32), ('e', 18), ('f', 33), ('g', 34), ('h', 35), ('i', 23),
    ('j', 36), ('k', 37), ('l', 38), ('m', 50), ('n', 49), ('o', 24), ('p', 25), ('q', 16), ('r', 19),
    ('s', 31), ('t', 20), ('u', 22), ('v', 47), ('w', 17), ('x', 45), ('y', 21), ('z', 44)]

def digitCodes : List (Char × Nat) :=
  [('0', 11), ('1', 2), ('2', 3), ('3', 4), ('4', 5), ('5', 6), ('6', 7), ('7', 8), ('8', 9), ('9', 10)]

def namedCodes : List (String × Nat) :=
  [("return", 28), ("enter", 28), ("kp_enter", 28), ("space", 57), ("tab", 15), ("escape", 1),
    ("esc", 1), ("backspace", 14), ("delete", 111), ("del", 111), ("insert", 110), ("ins", 110),
    ("home", 102), ("end", 107), ("page_up", 104), ("pageup", 104), ("prior", 104),
    ("page_down", 109), ("pagedown", 109), ("next", 109), ("up", 103), ("down", 108), ("left", 105),
    ("right", 106), ("minus", 12), ("equal", 13), ("comma", 51), ("period", 52), ("dot", 52),
    ("slash", 53), ("semicolon", 39), ("apostrophe", 40), ("grave", 41), ("bracketleft", 26),
    ("bracketright", 27), ("backslash", 43), ("f1", 59), ("f2", 60), ("f3", 61), ("f4", 62),
    ("f5", 63), ("f6", 64), ("f7", 65), ("f8", 66), ("f9", 67), ("f10", 68), ("f11", 87), ("f12", 88)]

/-- The evdev code of a keysym: a single letter or digit, or a name, in either case. -/
def keysymToEvdev (key : String) : Option Nat :=
  let lower := Text.asciiLower key
  let single :=
    match lower.toList with
    | [c] => (letterCodes ++ digitCodes).lookup c
    | _ => none
  match single with
  | some code => some code
  | none => namedCodes.lookup lower

namespace KeyCombo

def encodeWtype (combo : KeyCombo) : List String :=
  combo.modifiers.iter.flatMap (fun m => ["-M", m.wtypeName]) ++ ["-k", combo.key]

/-- The modifiers are pressed first and released last, in the opposite order. -/
def encodeYdotoolKey (combo : KeyCombo) : Except InputError (List String) :=
  match keysymToEvdev combo.key with
  | none =>
    .error (.invalidCombo ("key `" ++ combo.key ++
      "` has no known Linux input-event code for the ydotool backend"))
  | some keyCode =>
    let mods := combo.modifiers.iter.map Modifier.ydotoolKeycode
    .ok (mods.map (fun m => toString m ++ ":1") ++ [toString keyCode ++ ":1", toString keyCode ++ ":0"] ++
      mods.reverse.map fun m => toString m ++ ":0")

example : encodeYdotoolKey ⟨{.ctrl, .shift}, "t"⟩ =
    .ok ["29:1", "42:1", "20:1", "20:0", "42:0", "29:0"] := by decide

end KeyCombo

/-! ### The tools' side -/

/-- What is pressed: the keys of `ydotool`'s keyboard by their codes, those of `wtype`'s by name. -/
inductive Key where
  | code (n : Int)
  | modifier (name : String)
  | keysym (name : String)
  | button (n : Nat)
  deriving DecidableEq

/-- A `<keycode>:<state>` token, where state `1` is press and `0` is release. -/
def readToken (token : String) : Option (KeyEvent Key) :=
  match Text.splitOn ':' token with
  | [code, state] =>
    match Text.parseI32 code with
    | .error _ => none
    | .ok n =>
      if state = "1" then some (.down (.code n))
      else if state = "0" then some (.up (.code n))
      else none
  | _ => none

def readYdotoolKey : List String → Option (List (KeyEvent Key))
  | [] => some []
  | token :: rest =>
    match readToken token, readYdotoolKey rest with
    | some event, some events => some (event :: events)
    | _, _ => none

/-- The options of `wtype`: `-M` holds a modifier until the end, `-k` strikes a key. -/
def readWtype : List String → Option (List (KeyEvent Key))
  | "-M" :: name :: rest =>
    match readWtype rest with
    | none => none
    | some events => some (.down (.modifier name) :: (events ++ [.up (.modifier name)]))
  | ["-k", key] => some [.down (.keysym key), .up (.keysym key)]
  | _ => none

theorem readToken_code {n : Nat} (small : n < 65536) :
    readToken (toString n ++ ":1") = some (.down (.code n)) ∧
      readToken (toString n ++ ":0") = some (.up (.code n)) := by
  have fits : Machine.InI32 (n : Int) := by
    unfold Machine.InI32
    omega
  have clear : ':' ∉ (toString (n : Int)).toList := Text.absent_of_toString (by decide) (by decide) _
  have split (state : String) (plain : ':' ∉ state.toList) :
      Text.splitOn ':' (toString n ++ (":" ++ state)) = [toString (n : Int), state] := by
    rw [← String.append_assoc]
    exact (Text.splitOn_append clear state).trans (by rw [Text.splitOn_of_absent plain])
  have read := Text.parseI32_toString fits
  constructor
  · unfold readToken
    rw [show ":1" = ":" ++ "1" from rfl, split "1" (by decide)]
    dsimp only
    rw [read]
    rfl
  · unfold readToken
    rw [show ":0" = ":" ++ "0" from rfl, split "0" (by decide)]
    dsimp only
    rw [read]
    rfl

theorem readYdotoolKey_cons {token : String} {rest : List String} {event : KeyEvent Key}
    {events : List (KeyEvent Key)} (one : readToken token = some event)
    (more : readYdotoolKey rest = some events) :
    readYdotoolKey (token :: rest) = some (event :: events) := by
  rw [readYdotoolKey, one, more]

theorem readYdotoolKey_append {first second : List String} {events later : List (KeyEvent Key)}
    (left : readYdotoolKey first = some events) (right : readYdotoolKey second = some later) :
    readYdotoolKey (first ++ second) = some (events ++ later) := by
  induction first generalizing events with
  | nil =>
    cases left
    exact right
  | cons token rest ih =>
    unfold readYdotoolKey at left
    split at left
    · next e es one more =>
      cases left
      exact readYdotoolKey_cons one (ih more)
    · cases left

theorem readYdotoolKey_presses {codes : List Nat} (small : ∀ n ∈ codes, n < 65536) :
    readYdotoolKey (codes.map fun n => toString n ++ ":1") =
      some (codes.map fun (n : Nat) => .down (.code n)) := by
  induction codes with
  | nil => rfl
  | cons n rest ih =>
    rw [List.forall_mem_cons] at small
    exact readYdotoolKey_cons (readToken_code small.1).1 (ih small.2)

theorem readYdotoolKey_releases {codes : List Nat} (small : ∀ n ∈ codes, n < 65536) :
    readYdotoolKey (codes.map fun n => toString n ++ ":0") =
      some (codes.map fun (n : Nat) => .up (.code n)) := by
  induction codes with
  | nil => rfl
  | cons n rest ih =>
    rw [List.forall_mem_cons] at small
    exact readYdotoolKey_cons (readToken_code small.1).2 (ih small.2)

/-! ### The codes -/

theorem ydotoolKeycode_small (m : Modifier) : m.ydotoolKeycode < 65536 := by cases m <;> decide

theorem ydotoolKeycode_inj {m n : Modifier} (same : m.ydotoolKeycode = n.ydotoolKeycode) : m = n := by
  cases m <;> cases n <;> first | rfl | exact absurd same (by decide)

theorem mem_of_lookup {α β : Type} [BEq α] [LawfulBEq α] {table : List (α × β)} {k : α} {v : β}
    (found : table.lookup k = some v) : v ∈ table.map Prod.snd := by
  obtain ⟨before, later, rfl, -⟩ := List.lookup_eq_some_iff.mp found
  simp

theorem mem_codes {key : String} {code : Nat} (mapped : keysymToEvdev key = some code) :
    code ∈ letterCodes.map Prod.snd ++ digitCodes.map Prod.snd ++ namedCodes.map Prod.snd := by
  unfold keysymToEvdev at mapped
  dsimp only at mapped
  split at mapped
  · next single =>
    cases mapped
    split at single
    · have member := mem_of_lookup single
      rw [List.map_append] at member
      exact List.mem_append_left _ member
    · cases single
  · exact List.mem_append_right _ (mem_of_lookup mapped)

/-- No keysym is struck by a modifier's own key. -/
theorem keysymToEvdev_range {key : String} {code : Nat} (mapped : keysymToEvdev key = some code) :
    code < 65536 ∧ ∀ m : Modifier, code ≠ m.ydotoolKeycode := by
  have member := mem_codes mapped
  have all : ∀ n ∈ letterCodes.map Prod.snd ++ digitCodes.map Prod.snd ++ namedCodes.map Prod.snd,
      n < 65536 ∧ n ∉ [29, 42, 56, 125] := by decide
  obtain ⟨small, other⟩ := all code member
  refine ⟨small, fun m same => other ?_⟩
  rw [same]
  cases m <;> decide

/-! ### What is struck -/

/-- The key is struck once, after its modifiers and with exactly these held besides what was held
before, and in the end none of them is. -/
structure Strikes (events : List (KeyEvent Key)) (modifiers : Finset Key) (key : Key) : Prop where
  fresh : key ∉ modifiers
  struck : ∀ held, ∃ earlier, strokes held events = earlier ++ [(held ∪ modifiers, key)] ∧
    (earlier.map Prod.snd).toFinset = modifiers
  released : ∀ held, after held events = held \ insert key modifiers
  settles : Settles events

theorem strokes_presses (held : Finset Key) (keys : List Key) :
    (strokes held (keys.map .down)).map Prod.snd = keys := by
  induction keys generalizing held with
  | nil => rfl
  | cons k rest ih => simp [strokes, ih]

theorem strikes_chord {modifiers : List Key} {key : Key} (fresh : key ∉ modifiers) :
    Strikes (chord modifiers key) modifiers.toFinset key where
  fresh := by simpa using fresh
  struck held := ⟨strokes held (modifiers.map .down), strokes_chord held modifiers key, by
    rw [strokes_presses]⟩
  released held := after_chord held modifiers key
  settles := settles_chord modifiers key

namespace KeyCombo

def codes (combo : KeyCombo) : List Key := combo.modifiers.iter.map fun m => .code m.ydotoolKeycode

def names (combo : KeyCombo) : List Key := combo.modifiers.iter.map fun m => .modifier m.wtypeName

theorem read_encodeYdotoolKey {combo : KeyCombo} {code : Nat}
    (mapped : keysymToEvdev combo.key = some code) :
    ∃ argv, combo.encodeYdotoolKey = .ok argv ∧
      readYdotoolKey argv = some (chord combo.codes (.code code)) := by
  have small := (keysymToEvdev_range mapped).1
  have mods : ∀ n ∈ combo.modifiers.iter.map Modifier.ydotoolKeycode, n < 65536 := by
    intro n member
    obtain ⟨m, -, rfl⟩ := List.mem_map.mp member
    exact ydotoolKeycode_small m
  have back : ∀ n ∈ (combo.modifiers.iter.map Modifier.ydotoolKeycode).reverse, n < 65536 :=
    fun n member => mods n (List.mem_reverse.mp member)
  obtain ⟨pressed, released⟩ := readToken_code small
  have middle : readYdotoolKey [toString code ++ ":1", toString code ++ ":0"] =
      some [.down (.code code), .up (.code code)] :=
    readYdotoolKey_cons pressed (readYdotoolKey_cons released rfl)
  unfold encodeYdotoolKey
  rw [mapped]
  refine ⟨_, rfl, ?_⟩
  rw [readYdotoolKey_append (readYdotoolKey_append (readYdotoolKey_presses mods) middle)
    (readYdotoolKey_releases back)]
  simp [chord, codes, Function.comp_def]

theorem encodeYdotoolKey_none {combo : KeyCombo} (unmapped : keysymToEvdev combo.key = none) :
    combo.encodeYdotoolKey = .error (.invalidCombo ("key `" ++ combo.key ++
      "` has no known Linux input-event code for the ydotool backend")) := by
  unfold encodeYdotoolKey
  rw [unmapped]

theorem code_notMem {combo : KeyCombo} {code : Nat} (mapped : keysymToEvdev combo.key = some code) :
    Key.code code ∉ combo.codes := by
  intro member
  obtain ⟨m, -, same⟩ := List.mem_map.mp member
  exact (keysymToEvdev_range mapped).2 m (by simpa using same.symm)

theorem read_encodeWtype (combo : KeyCombo) :
    readWtype combo.encodeWtype = some (chord combo.names (.keysym combo.key)) := by
  unfold encodeWtype names
  induction combo.modifiers.iter with
  | nil => rfl
  | cons m rest ih =>
    have step : readWtype (["-M", m.wtypeName] ++ (rest.flatMap (fun m => ["-M", m.wtypeName]) ++
        ["-k", combo.key])) = some (.down (.modifier m.wtypeName) ::
          (chord (rest.map fun m => .modifier m.wtypeName) (.keysym combo.key) ++
            [.up (.modifier m.wtypeName)])) := by
      rw [List.cons_append, List.singleton_append, readWtype, ih]
    rw [List.flatMap_cons, List.append_assoc, step, List.map_cons, chord_cons]

/-- Equal streams strike equal keys with equal modifiers. -/
theorem chord_inj {first second : List Key} {key other : Key} (same : chord first key = chord second other) :
    first.toFinset = second.toFinset ∧ key = other := by
  have last := congrArg (fun events => (strokes ∅ events).getLast?) same
  simpa [strokes_chord] using last

theorem codes_inj {combo other : KeyCombo} (same : combo.codes.toFinset = other.codes.toFinset) :
    combo.modifiers = other.modifiers := by
  have mem (c : KeyCombo) (m : Modifier) :
      Key.code m.ydotoolKeycode ∈ c.codes.toFinset ↔ m ∈ c.modifiers := by
    rw [List.mem_toFinset, codes, List.mem_map, ← ModifierSet.mem_iter]
    constructor
    · rintro ⟨n, member, coded⟩
      have same : n.ydotoolKeycode = m.ydotoolKeycode := by simpa using coded
      rwa [← ydotoolKeycode_inj same]
    · exact fun member => ⟨m, member, rfl⟩
  ext m
  rw [← mem, same, mem]

theorem names_inj {combo other : KeyCombo} (same : combo.names.toFinset = other.names.toFinset) :
    combo.modifiers = other.modifiers := by
  have mem (c : KeyCombo) (m : Modifier) :
      Key.modifier m.wtypeName ∈ c.names.toFinset ↔ m ∈ c.modifiers := by
    rw [List.mem_toFinset, names, List.mem_map, ← ModifierSet.mem_iter]
    constructor
    · rintro ⟨n, member, named⟩
      cases n <;> cases m <;> first | exact member | exact absurd named (by decide)
    · exact fun member => ⟨m, member, rfl⟩
  ext m
  rw [← mem, same, mem]

/-- Both encodings strike the combo's key with its modifiers and leave nothing held. The one for `wtype` is
the combo's own; the one for `ydotool` is shared by combos of the same modifiers whose keys have the same
code, such as `t` and `T` or `Return` and `enter`. -/
theorem encodings_strike (combo : KeyCombo) :
    (∃ events, readWtype combo.encodeWtype = some events ∧
      Strikes events combo.names.toFinset (.keysym combo.key)) ∧
    (∀ code, keysymToEvdev combo.key = some code →
      ∃ argv events, combo.encodeYdotoolKey = .ok argv ∧ readYdotoolKey argv = some events ∧
        Strikes events combo.codes.toFinset (.code code)) ∧
    (keysymToEvdev combo.key = none → ∃ text, combo.encodeYdotoolKey = .error (.invalidCombo text)) ∧
    ∀ other : KeyCombo, (other.encodeWtype = combo.encodeWtype → other = combo) ∧
      ∀ argv, combo.encodeYdotoolKey = .ok argv → (other.encodeYdotoolKey = .ok argv ↔
        other.modifiers = combo.modifiers ∧ keysymToEvdev other.key = keysymToEvdev combo.key) := by
  refine ⟨⟨_, read_encodeWtype combo, strikes_chord ?_⟩, ?_, ?_, fun other => ⟨?_, ?_⟩⟩
  · simp [names]
  · intro code mapped
    obtain ⟨argv, encoded, read⟩ := read_encodeYdotoolKey mapped
    exact ⟨argv, _, encoded, read, strikes_chord (code_notMem mapped)⟩
  · exact fun unmapped => ⟨_, encodeYdotoolKey_none unmapped⟩
  · intro same
    have read := read_encodeWtype other
    rw [same, read_encodeWtype combo, Option.some_inj] at read
    obtain ⟨mods, key⟩ := chord_inj read
    obtain ⟨modifiers, name⟩ := combo
    obtain ⟨modifiers', name'⟩ := other
    obtain rfl : modifiers = modifiers' := names_inj mods
    obtain rfl : name = name' := by simpa using key
    rfl
  · intro argv encoded
    have mapped {c : KeyCombo} (ok : c.encodeYdotoolKey = .ok argv) :
        ∃ code, keysymToEvdev c.key = some code := by
      unfold encodeYdotoolKey at ok
      split at ok
      · cases ok
      · exact ⟨_, ‹_›⟩
    obtain ⟨code, coded⟩ := mapped encoded
    constructor
    · intro encoded'
      obtain ⟨code', coded'⟩ := mapped encoded'
      obtain ⟨argv₁, shown, read⟩ := read_encodeYdotoolKey coded
      obtain ⟨argv₂, shown', read'⟩ := read_encodeYdotoolKey coded'
      obtain rfl : argv₁ = argv := by simpa [encoded] using shown.symm
      obtain rfl : argv₂ = argv₁ := by simpa [encoded'] using shown'.symm
      rw [read', Option.some_inj] at read
      obtain ⟨mods, key⟩ := chord_inj read
      refine ⟨codes_inj mods, ?_⟩
      rw [coded, coded', show code' = code by simpa using key]
    · rintro ⟨mods, same⟩
      unfold encodeYdotoolKey at encoded ⊢
      rw [coded] at encoded
      rw [same, coded, mods]
      exact encoded

end KeyCombo

end HyprPilot
