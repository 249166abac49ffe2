import HyprPilot.Base.Text

/-!
# UTF-8 texts

The lossy decoding of a text's UTF-8 bytes loses nothing, and only the character NUL has a zero byte
in its encoding.
-/

namespace Text

def utf8Bytes (s : String) : List UInt8 := s.toList.flatMap String.utf8EncodeChar

theorem toNat_byte {n : Nat} (small : n < 256) : (UInt8.ofNat n).toNat = n := by
  simp [Nat.mod_eq_of_lt small]

theorem char_range (c : Char) :
    c.toNat < 0xD800 ∨ (0xDFFF < c.toNat ∧ c.toNat < 0x110000) := c.valid

/-- The encoding by the size of the character's number. -/
theorem utf8EncodeChar_eq (c : Char) : String.utf8EncodeChar c =
    if c.toNat ≤ 0x7F then [.ofNat c.toNat]
    else if c.toNat ≤ 0x7FF then
      [.ofNat (c.toNat / 64 % 32 + 0xC0), .ofNat (c.toNat % 64 + 0x80)]
    else if c.toNat ≤ 0xFFFF then
      [.ofNat (c.toNat / 4096 % 16 + 0xE0), .ofNat (c.toNat / 64 % 64 + 0x80),
        .ofNat (c.toNat % 64 + 0x80)]
    else
      [.ofNat (c.toNat / 262144 % 8 + 0xF0), .ofNat (c.toNat / 4096 % 64 + 0x80),
        .ofNat (c.toNat / 64 % 64 + 0x80), .ofNat (c.toNat % 64 + 0x80)] := rfl

/-! ### Lead bytes -/

theorem secondByte_two {b : UInt8} (low : 0xC2 ≤ b.toNat) (high : b.toNat ≤ 0xDF) :
    secondByte b = some (0x80, 0xBF, 2) :=
  if_pos ⟨UInt8.le_iff_toNat_le.mpr low, UInt8.le_iff_toNat_le.mpr high⟩

theorem secondByte_three {b d : UInt8} (low : 0xE0 ≤ b.toNat) (high : b.toNat ≤ 0xEF)
    (least : 0x80 ≤ d.toNat) (most : d.toNat ≤ 0xBF)
    (long : b.toNat = 0xE0 → 0xA0 ≤ d.toNat) (scalar : b.toNat = 0xED → d.toNat ≤ 0x9F) :
    ∃ lo hi, secondByte b = some (lo, hi, 3) ∧ ¬(d < lo ∨ hi < d) := by
  simp only [secondByte, UInt8.le_iff_toNat_le, UInt8.lt_iff_toNat_lt, ← UInt8.toNat_inj,
    UInt8.reduceToNat]
  by_cases e0 : b.toNat = 0xE0
  · have := long e0
    exact ⟨0xA0, 0xBF, by simp [e0], by simp; omega⟩
  · by_cases ed : b.toNat = 0xED
    · have := scalar ed
      exact ⟨0x80, 0x9F, by simp [ed], by simp; omega⟩
    · refine ⟨0x80, 0xBF, ?_, by simp; omega⟩
      rw [if_neg (by omega), if_neg e0, if_neg ed, if_pos (by omega)]

theorem secondByte_four {b d : UInt8} (low : 0xF0 ≤ b.toNat) (high : b.toNat ≤ 0xF4)
    (least : 0x80 ≤ d.toNat) (most : d.toNat ≤ 0xBF)
    (long : b.toNat = 0xF0 → 0x90 ≤ d.toNat) (scalar : b.toNat = 0xF4 → d.toNat ≤ 0x8F) :
    ∃ lo hi, secondByte b = some (lo, hi, 4) ∧ ¬(d < lo ∨ hi < d) := by
  simp only [secondByte, UInt8.le_iff_toNat_le, UInt8.lt_iff_toNat_lt, ← UInt8.toNat_inj,
    UInt8.reduceToNat]
  by_cases f0 : b.toNat = 0xF0
  · have := long f0
    exact ⟨0x90, 0xBF, by simp [f0], by simp; omega⟩
  · by_cases f4 : b.toNat = 0xF4
    · have := scalar f4
      exact ⟨0x80, 0x8F, by simp [f4], by simp; omega⟩
    · refine ⟨0x80, 0xBF, ?_, by simp; omega⟩
      rw [if_neg (by omega), if_neg (by omega), if_neg (by omega), if_neg (by omega), if_neg f0,
        if_pos (by omega)]

theorem continues_byte {b : UInt8} (least : 0x80 ≤ b.toNat) (most : b.toNat ≤ 0xBF) : continues b = true := by
  simp [continues, UInt8.le_iff_toNat_le, least, most]


theorem ofPayload_eq {lead : Nat} {bytes : List UInt8} {c : Char}
    (value : bytes.foldl (fun n b => n * 64 + (b.toNat - 0x80)) lead = c.toNat) :
    ofPayload lead bytes = c := by
  rw [ofPayload, value, Char.ofNat_toNat]

theorem decode_two {c : Char} {b0 b1 : UInt8} (lead : b0.toNat = c.toNat / 64 + 0xC0)
    (second : b1.toNat = c.toNat % 64 + 0x80) (low : 0x7F < c.toNat) (high : c.toNat ≤ 0x7FF)
    (rest : List UInt8) : utf8LossyChars (b0 :: b1 :: rest) = c :: utf8LossyChars rest := by
  have wide : ¬b0 < 0x80 := by
    simp only [UInt8.lt_iff_toNat_lt, lead, UInt8.reduceToNat]
    omega
  have inside : ¬(b1 < 0x80 ∨ 0xBF < b1) := by
    simp only [UInt8.lt_iff_toNat_lt, second, UInt8.reduceToNat]
    omega
  rw [utf8LossyChars, if_neg wide, secondByte_two (by omega) (by omega)]
  dsimp only
  rw [if_neg inside, if_pos rfl, ofPayload_eq (c := c)]
  simp only [List.foldl_cons, List.foldl_nil]
  omega

theorem decode_three {c : Char} {b0 b1 b2 : UInt8} (lead : b0.toNat = c.toNat / 4096 + 0xE0)
    (second : b1.toNat = c.toNat / 64 % 64 + 0x80) (third : b2.toNat = c.toNat % 64 + 0x80)
    (low : 0x7FF < c.toNat) (high : c.toNat ≤ 0xFFFF)
    (rest : List UInt8) : utf8LossyChars (b0 :: b1 :: b2 :: rest) = c :: utf8LossyChars rest := by
  have scalar := char_range c
  have wide : ¬b0 < 0x80 := by
    simp only [UInt8.lt_iff_toNat_lt, lead, UInt8.reduceToNat]
    omega
  obtain ⟨lo, hi, bounds, inside⟩ := secondByte_three (b := b0) (d := b1) (by omega) (by omega)
    (by omega) (by omega) (by omega) (by omega)
  have more : continues b2 = true := continues_byte (by omega) (by omega)
  rw [utf8LossyChars, if_neg wide, bounds]
  dsimp only
  rw [if_neg inside, if_neg (by decide), more, if_neg (by decide), if_pos rfl, ofPayload_eq (c := c)]
  simp only [List.foldl_cons, List.foldl_nil]
  omega

theorem decode_four {c : Char} {b0 b1 b2 b3 : UInt8} (lead : b0.toNat = c.toNat / 262144 + 0xF0)
    (second : b1.toNat = c.toNat / 4096 % 64 + 0x80) (third : b2.toNat = c.toNat / 64 % 64 + 0x80)
    (fourth : b3.toNat = c.toNat % 64 + 0x80)
    (low : 0xFFFF < c.toNat)
    (rest : List UInt8) : utf8LossyChars (b0 :: b1 :: b2 :: b3 :: rest) = c :: utf8LossyChars rest := by
  have scalar := char_range c
  have wide : ¬b0 < 0x80 := by
    simp only [UInt8.lt_iff_toNat_lt, lead, UInt8.reduceToNat]
    omega
  obtain ⟨lo, hi, bounds, inside⟩ := secondByte_four (b := b0) (d := b1) (by omega) (by omega)
    (by omega) (by omega) (by omega) (by omega)
  have more : continues b2 = true := continues_byte (by omega) (by omega)
  have last : continues b3 = true := continues_byte (by omega) (by omega)
  rw [utf8LossyChars, if_neg wide, bounds]
  dsimp only
  rw [if_neg inside, if_neg (by decide), more, if_neg (by decide), if_neg (by decide), last,
    if_neg (by decide), ofPayload_eq (c := c)]
  simp only [List.foldl_cons, List.foldl_nil]
  omega

/-! ### Decoding -/

theorem decode_char (c : Char) (rest : List UInt8) :
    utf8LossyChars (String.utf8EncodeChar c ++ rest) = c :: utf8LossyChars rest := by
  have scalar := char_range c
  rw [utf8EncodeChar_eq]
  split
  · have ascii : (UInt8.ofNat c.toNat).toNat = c.toNat := toNat_byte (by omega)
    have narrow : UInt8.ofNat c.toNat < 0x80 := by
      simp only [UInt8.lt_iff_toNat_lt, ascii, UInt8.reduceToNat]
      omega
    rw [List.singleton_append, utf8LossyChars, if_pos narrow, ascii, Char.ofNat_toNat]
  · split
    · apply decode_two
      · rw [toNat_byte (by omega)]
        omega
      · exact toNat_byte (by omega)
      · omega
      · assumption
    · split
      · apply decode_three
        · rw [toNat_byte (by omega)]
          omega
        · exact toNat_byte (by omega)
        · exact toNat_byte (by omega)
        · omega
        · assumption
      · apply decode_four
        · rw [toNat_byte (by omega)]
          omega
        · exact toNat_byte (by omega)
        · exact toNat_byte (by omega)
        · exact toNat_byte (by omega)
        · omega

theorem utf8Lossy_utf8Bytes (s : String) : utf8Lossy (utf8Bytes s) = s := by
  have decoded (cs : List Char) : utf8LossyChars (cs.flatMap String.utf8EncodeChar) = cs := by
    induction cs with
    | nil => rfl
    | cons c cs ih => rw [List.flatMap_cons, decode_char, ih]
  rw [utf8Lossy, utf8Bytes, decoded, String.ofList_toList]

/-- The text with these bytes; bytes that are no text's are not valid. -/
def fromUtf8 (bytes : List UInt8) : Option String :=
  if utf8Bytes (utf8Lossy bytes) = bytes then some (utf8Lossy bytes) else none

theorem fromUtf8_eq_some {bytes : List UInt8} {s : String} :
    fromUtf8 bytes = some s ↔ utf8Bytes s = bytes := by
  unfold fromUtf8
  constructor
  · intro valid
    split at valid
    · rename_i same
      rwa [← Option.some.inj valid]
    · cases valid
  · rintro rfl
    rw [utf8Lossy_utf8Bytes, if_pos rfl]

/-! ### ASCII bytes -/

theorem ne_byte {b : UInt8} (ascii : b.toNat < 0x80) {n : Nat} (wide : 0x80 ≤ n) (small : n < 256) :
    b ≠ UInt8.ofNat n := by
  rintro rfl
  rw [toNat_byte small] at ascii
  omega

/-- An ASCII byte stands for its own character only. -/
theorem ascii_mem_char {b : UInt8} (ascii : b.toNat < 0x80) {c : Char}
    (inside : b ∈ String.utf8EncodeChar c) : c.toNat = b.toNat := by
  have tail (n : Nat) : b ≠ UInt8.ofNat (n % 64 + 0x80) := ne_byte ascii (by omega) (by omega)
  rw [utf8EncodeChar_eq] at inside
  split at inside
  · rw [List.mem_singleton.mp inside, toNat_byte (by omega)]
  · exfalso
    split at inside
    · have lead : b ≠ UInt8.ofNat (c.toNat / 64 % 32 + 0xC0) := ne_byte ascii (by omega) (by omega)
      simp only [List.mem_cons, List.not_mem_nil, lead, tail, or_self] at inside
    · split at inside
      · have lead : b ≠ UInt8.ofNat (c.toNat / 4096 % 16 + 0xE0) := ne_byte ascii (by omega) (by omega)
        simp only [List.mem_cons, List.not_mem_nil, lead, tail, or_self] at inside
      · have lead : b ≠ UInt8.ofNat (c.toNat / 262144 % 8 + 0xF0) := ne_byte ascii (by omega) (by omega)
        simp only [List.mem_cons, List.not_mem_nil, lead, tail, or_self] at inside

theorem ascii_notMem {b : UInt8} (ascii : b.toNat < 0x80) {s : String}
    (free : Char.ofNat b.toNat ∉ s.toList) : b ∉ utf8Bytes s := by
  intro member
  obtain ⟨c, inside, byte⟩ := List.mem_flatMap.mp member
  have same : c = Char.ofNat b.toNat := by rw [← ascii_mem_char ascii byte, Char.ofNat_toNat]
  rw [same] at inside
  exact free inside

theorem zero_notMem {s : String} (free : Char.ofNat 0 ∉ s.toList) : 0 ∉ utf8Bytes s :=
  ascii_notMem (by decide) free

theorem utf8Bytes_append (s t : String) : utf8Bytes (s ++ t) = utf8Bytes s ++ utf8Bytes t := by
  simp [utf8Bytes, String.toList_append]

/-- Bytes of a text at the beginning of another text's bytes are a beginning of that text. -/
theorem prefix_of_utf8Bytes {s t : String} (begins : utf8Bytes s <+: utf8Bytes t) : s.toList <+: t.toList := by
  obtain ⟨rest, whole⟩ := begins
  have decoded (cs : List Char) :
      utf8LossyChars (cs.flatMap String.utf8EncodeChar ++ rest) = cs ++ utf8LossyChars rest := by
    induction cs with
    | nil => rfl
    | cons c cs ih => rw [List.flatMap_cons, List.append_assoc, decode_char, ih, List.cons_append]
  have chars : utf8LossyChars (utf8Bytes t) = t.toList := by
    rw [← utf8Lossy_utf8Bytes t, utf8Lossy, String.toList_ofList, ← utf8Lossy, utf8Lossy_utf8Bytes]
  rw [← whole, utf8Bytes, decoded] at chars
  exact ⟨_, chars⟩

theorem utf8Bytes_eq_nil {s : String} : utf8Bytes s = [] ↔ s = "" := by
  constructor
  · intro empty
    rw [← utf8Lossy_utf8Bytes s, empty]
    rfl
  · rintro rfl
    rfl

end Text
