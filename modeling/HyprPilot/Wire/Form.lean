import HyprPilot.Wire.JsonValue

/-!
# JSON forms

The form of a type: how its values are written as JSON and read back, and which of them can be
written; what is read is one of them. Forms of records and of tagged unions are put together from those of their fields.
-/

namespace HyprPilot
open JsonText (Fits)

def NoFloat (_ : String) : Prop := False

structure Form (α : Type) where
  write : α → Json
  read : Json → Option α
  Valid : α → Prop
  levels : Nat
  fits : ∀ {a}, Valid a → Fits NoFloat levels (write a)
  back : ∀ {a}, Valid a → read (write a) = some a
  sound : ∀ {v a}, read v = some a → Valid a

namespace Form

variable {α β : Type}

theorem fits_above (form : Form α) {a : α} (valid : form.Valid a) {levels : Nat}
    (le : form.levels ≤ levels) : Fits NoFloat levels (form.write a) := (form.fits valid).mono le

/-! ### Scalars -/

def string : Form String where
  write := .str
  read v := v.asString.toOption
  Valid _ := True
  levels := 0
  fits _ := .str _
  back _ := rfl
  sound _ := trivial

def bool : Form Bool where
  write := .bool
  read v := v.asBool.toOption
  Valid _ := True
  levels := 0
  fits _ := .bool _
  back _ := rfl
  sound _ := trivial

@[simp] theorem string_back (s : String) : string.read (string.write s) = some s := rfl

@[simp] theorem bool_back (b : Bool) : bool.read (bool.write b) = some b := rfl

theorem asInt_int {type : String} {low high n : Int} (least : low ≤ n) (most : n ≤ high) :
    Json.asInt type low high (.int n) = .ok n := if_pos ⟨least, most⟩

theorem of_asInt {type : String} {low high n : Int} {v : Json}
    (read : (Json.asInt type low high v).toOption = some n) : low ≤ n ∧ n ≤ high := by
  cases v with
  | int m =>
    rw [Json.asInt] at read
    split at read
    · next range =>
      cases read
      exact range
    · cases read
  | _ => cases read

theorem of_asNat {type : String} {high : Int} {n : Nat} {v : Json}
    (read : (Json.asNat type high v).toOption = some n) : (n : Int) ≤ high := by
  rw [Json.asNat] at read
  cases whole : Json.asInt type 0 high v with
  | error e =>
    rw [whole] at read
    cases read
  | ok m =>
    rw [whole] at read
    cases read
    have range := of_asInt (by rw [whole]; rfl : (Json.asInt type 0 high v).toOption = some m)
    omega

def i32 : Form Int where
  write := .int
  read v := v.asI32.toOption
  Valid := Machine.InI32
  levels := 0
  fits range := .int ⟨by have := range.1; omega, by have := range.2; omega⟩
  back range := by rw [Json.asI32, asInt_int range.1 range.2]; rfl
  sound read := of_asInt read

def asI64 : Json → Json.Result Int := Json.asInt "i64" (-9223372036854775808) 9223372036854775807

def i64 : Form Int where
  write := .int
  read v := (asI64 v).toOption
  Valid n := -9223372036854775808 ≤ n ∧ n ≤ 9223372036854775807
  levels := 0
  fits range := .int ⟨range.1, by have := range.2; omega⟩
  back range := by rw [asI64, asInt_int range.1 range.2]; rfl
  sound read := of_asInt read

/-- `u64`, and `usize` where it has 64 bits. -/
def u64 : Form Nat where
  write n := .int n
  read v := v.asUsize.toOption
  Valid n := n < 18446744073709551616
  levels := 0
  fits small := .int ⟨by omega, by omega⟩
  back small := by
    rw [Json.asUsize, Json.asNat, asInt_int (by omega) (by omega)]
    rfl
  sound read := by
    have := of_asNat read
    omega

def u32 : Form Nat where
  write n := .int n
  read v := v.asU32.toOption
  Valid n := n < 4294967296
  levels := 0
  fits small := .int ⟨by omega, by omega⟩
  back small := by
    rw [Json.asU32, Json.asNat, asInt_int (by omega) (by omega)]
    rfl
  sound read := by
    have := of_asNat read
    omega

/-- Values with a name each. -/
def named (name : α → String) (table : List (String × α))
    (complete : ∀ a, table.lookup (name a) = some a) : Form α where
  write a := .str (name a)
  read v := (Json.asVariant table v).toOption
  Valid _ := True
  levels := 0
  fits _ := .str _
  back {a} _ := by
    rw [Json.asVariant, Json.variantNamed, complete a]
    rfl
  sound _ := trivial

/-! ### Options and lists -/

def option (form : Form α) (some_ : ∀ a, form.write a ≠ .null) : Form (Option α) where
  write
    | none => .null
    | some a => form.write a
  read
    | .null => some none
    | v => (form.read v).map some
  Valid o := ∀ a ∈ o, form.Valid a
  levels := form.levels
  fits {o} valid := by
    cases o with
    | none => exact .null
    | some a => exact form.fits (valid a rfl)
  back {o} valid := by
    cases o with
    | none => rfl
    | some a =>
      have read := form.back (valid a rfl)
      have other := some_ a
      dsimp only
      cases written : form.write a with
      | null => exact absurd written other
      | _ =>
        rw [written] at read
        dsimp only
        rw [read]
        rfl
  sound {v o} read a inside := by
    cases inside
    have inner : (form.read v).map some = some (some a) := by
      cases v with
      | null => cases read
      | _ => exact read
    obtain ⟨b, found, same⟩ := Option.map_eq_some_iff.mp inner
    cases same
    exact form.sound found

def list (form : Form α) : Form (List α) where
  write as := .arr (as.map form.write)
  read
    | .arr items => items.mapM form.read
    | _ => none
  Valid as := ∀ a ∈ as, form.Valid a
  levels := form.levels + 1
  fits {as} valid := by
    apply Fits.arr
    intro v inside
    obtain ⟨a, member, rfl⟩ := List.mem_map.mp inside
    exact form.fits (valid a member)
  back {as} valid := by
    dsimp only
    induction as with
    | nil => rfl
    | cons a as ih =>
      obtain ⟨first, rest⟩ := List.forall_mem_cons.mp valid
      rw [List.map_cons, List.mapM_cons, form.back first, ih rest]
      rfl
  sound {v as} read := by
    cases v with
    | arr items =>
      induction items generalizing as with
      | nil =>
        cases read
        simp
      | cons item items ih =>
        dsimp only at read ih
        rw [List.mapM_cons] at read
        obtain ⟨a, first, read⟩ := Option.bind_eq_some_iff.mp read
        obtain ⟨rest, others, read⟩ := Option.bind_eq_some_iff.mp read
        cases read
        exact List.forall_mem_cons.mpr ⟨form.sound first, ih others⟩
    | _ => cases read

def pair (form : Form α) : Form (α × α) where
  write p := .arr [form.write p.1, form.write p.2]
  read
    | .arr [a, b] => do return (← form.read a, ← form.read b)
    | _ => none
  Valid p := form.Valid p.1 ∧ form.Valid p.2
  levels := form.levels + 1
  fits {p} valid := by
    apply Fits.arr
    intro v inside
    simp only [List.mem_cons, List.not_mem_nil, or_false] at inside
    rcases inside with rfl | rfl
    · exact form.fits valid.1
    · exact form.fits valid.2
  back {p} valid := by
    dsimp only
    rw [form.back valid.1, form.back valid.2]
    rfl
  sound {v p} read := by
    split at read
    · obtain ⟨a, first, read⟩ := Option.bind_eq_some_iff.mp read
      obtain ⟨b, second, read⟩ := Option.bind_eq_some_iff.mp read
      cases read
      exact ⟨form.sound first, form.sound second⟩
    · cases read

end Form

/-! ### Records -/

/-- The value of a key; a key that comes twice is an error. -/
def once (name : String) (fields : List (String × Json)) : Option (Option Json) :=
  match fields.filter (·.1 == name) with
  | [] => some none
  | [field] => some (some field.2)
  | _ => none

/-- A field of a map. -/
def field {α : Type} (name : String) (read : Json → Option α) : Json → Option α
  | .obj fields =>
    match once name fields with
    | some (some v) => read v
    | _ => none
  | _ => none

/-- A field that may be missing or null. -/
def optionField {α : Type} (name : String) (read : Json → Option α) : Json → Option (Option α)
  | .obj fields =>
    match once name fields with
    | some none => some none
    | some (some .null) => some none
    | some (some v) => (read v).map some
    | none => none
  | _ => none

theorem field_back {α : Type} {name : String} {form : Form α} {a : α} (valid : form.Valid a)
    {fields : List (String × Json)} (found : once name fields = some (some (form.write a))) :
    field name form.read (.obj fields) = some a := by
  rw [field, found]
  exact form.back valid

theorem optionField_back {α : Type} {name : String} {form : Form α} {some_ : ∀ a, form.write a ≠ .null}
    {o : Option α} (valid : (form.option some_).Valid o) {fields : List (String × Json)}
    (found : once name fields = some (some ((form.option some_).write o))) :
    optionField name form.read (.obj fields) = some o := by
  have read := (form.option some_).back valid
  rw [optionField, found]
  revert read
  cases (form.option some_).write o <;> exact id

/-- A field of a struct: of a map by its name, of a sequence by its position. -/
def member {α : Type} (index : Nat) (name : String) (read : Json → Option α) : Json → Option α
  | .arr items => items[index]?.bind read
  | v => field name read v

def optionMember {α : Type} (index : Nat) (name : String) (read : Json → Option α) :
    Json → Option (Option α)
  | .arr items => items[index]?.bind fun v =>
    match v with
    | .null => some none
    | v => (read v).map some
  | v => optionField name read v

theorem field_sound {α : Type} {name : String} {form : Form α} {v : Json} {a : α}
    (read : field name form.read v = some a) : form.Valid a := by
  cases v with
  | obj fields =>
    rw [field] at read
    split at read
    · exact form.sound read
    · cases read
  | _ => cases read

theorem optionField_sound {α : Type} {name : String} {form : Form α} {v : Json} {o : Option α}
    (read : optionField name form.read v = some o) : ∀ a ∈ o, form.Valid a := by
  cases v with
  | obj fields =>
    rw [optionField] at read
    split at read
    · cases read
      simp
    · cases read
      simp
    · obtain ⟨a, found, same⟩ := Option.map_eq_some_iff.mp read
      cases same
      simpa using form.sound found
    · cases read
  | _ => cases read

theorem member_sound {α : Type} {index : Nat} {name : String} {form : Form α} {v : Json} {a : α}
    (read : member index name form.read v = some a) : form.Valid a := by
  unfold member at read
  split at read
  · obtain ⟨item, -, found⟩ := Option.bind_eq_some_iff.mp read
    exact form.sound found
  · exact field_sound read

/-- A struct may be a sequence of exactly its fields. -/
def struct {α : Type} (arity : Nat) (fields : Json → Option α) : Json → Option α
  | .arr items => if items.length = arity then fields (.arr items) else none
  | v => fields v

theorem struct_sound {α : Type} {arity : Nat} {fields : Json → Option α} {v : Json} {a : α}
    (read : struct arity fields v = some a) : fields v = some a := by
  unfold struct at read
  split at read
  · split at read
    · exact read
    · cases read
  · exact read

/-! ### Tagged unions -/

inductive Variant (α : Type) where
  | unit (a : α)
  | data (read : Json → Option α)

def Variant.readContent {α : Type} : Variant α → Option Json → Option α
  | .unit a, none => some a
  | .unit a, some .null => some a
  | .unit _, some _ => none
  | .data _, none => none
  | .data read, some v => read v

theorem lookup_of_mem {α : Type} {table : List (String × α)} (distinct : (table.map Prod.fst).Nodup)
    {name : String} {a : α} (listed : (name, a) ∈ table) : table.lookup name = some a := by
  induction table with
  | nil => cases listed
  | cons entry rest ih =>
    obtain ⟨fresh, distinct⟩ := List.nodup_cons.mp distinct
    rcases List.mem_cons.mp listed with rfl | later
    · exact List.lookup_cons_self
    · have other : (name == entry.1) = false := by
        rw [beq_eq_false_iff_ne]
        rintro rfl
        exact fresh (List.mem_map.mpr ⟨_, later, rfl⟩)
      rw [List.lookup_cons, other]
      exact ih distinct later

/-- A variant whose content is a value. -/
def Variant.content {α β : Type} (form : Form α) (make : α → β) : Variant β :=
  .data fun v => (form.read v).map make

theorem Variant.content_back {α β : Type} {form : Form α} {make : α → β} {a : α}
    (valid : form.Valid a) :
    (Variant.content form make).readContent (some (form.write a)) = some (make a) := by
  simp [Variant.content, readContent, form.back valid]

/-- A variant that has one field. -/
def Variant.field {α β : Type} (name : String) (form : Form α) (make : α → β) : Variant β :=
  .data fun v => (HyprPilot.field name form.read v).map make

def writeField {α : Type} (name : String) (form : Form α) (a : α) : Option Json :=
  some (.obj [(name, form.write a)])

theorem Variant.field_back {α β : Type} {name : String} {form : Form α} {make : α → β} {a : α}
    (valid : form.Valid a) : (Variant.field name form make).readContent (writeField name form a) =
      some (make a) := by
  simp [Variant.field, writeField, readContent, HyprPilot.field, once, form.back valid]

theorem fits_fields {fields : List (String × Json)} {levels : Nat} (distinct : (fields.map Prod.fst).Nodup)
    (each : ∀ f ∈ fields, Fits NoFloat levels f.2) :
    ∀ v ∈ some (Json.obj fields), Fits NoFloat (levels + 1) v := by
  intro v same
  cases same
  exact .obj distinct each

theorem fits_writeField {α : Type} {name : String} {form : Form α} {a : α} (valid : form.Valid a)
    {levels : Nat} (le : form.levels ≤ levels) :
    ∀ v ∈ writeField name form a, Fits NoFloat (levels + 1) v := by
  refine fits_fields (by simp) fun f inside => ?_
  rw [List.mem_singleton.mp inside]
  exact form.fits_above valid le

/-- A variant's name under one key and its content under another, where it has any. -/
def readTagged {α : Type} (tag content : String) (variants : List (String × Variant α)) :
    List (String × Json) → Option α := fun fields => do
  match ← once tag fields with
  | none => none
  | some name =>
    let variant ← (Json.asVariant variants name).toOption
    variant.readContent (← once content fields)

def readAdjacent {α : Type} (tag content : String) (variants : List (String × Variant α)) :
    Json → Option α
  | .obj fields => readTagged tag content variants fields
  | .arr [name, v] => do (← (Json.asVariant variants name).toOption).readContent (some v)
  | _ => none

/-- Whatever is read of a variant is valid. -/
def Variant.Sound {α : Type} (variant : Variant α) (Valid : α → Prop) : Prop :=
  ∀ content a, variant.readContent content = some a → Valid a

theorem Variant.unit_sound {α : Type} {a : α} {Valid : α → Prop} (valid : Valid a) :
    (Variant.unit a).Sound Valid := by
  intro content b read
  cases content with
  | none =>
    cases read
    exact valid
  | some v =>
    cases v <;> cases read
    exact valid

theorem Variant.data_sound {α : Type} {read : Json → Option α} {Valid : α → Prop}
    (each : ∀ {v a}, read v = some a → Valid a) : (Variant.data read).Sound Valid := by
  intro content a found
  cases content with
  | none => cases found
  | some v => exact each found

theorem Variant.field_sound {α β : Type} {name : String} {form : Form α} {make : α → β}
    {Valid : β → Prop} (each : ∀ a, form.Valid a → Valid (make a)) :
    (Variant.field name form make).Sound Valid := by
  refine Variant.data_sound fun {v b} found => ?_
  obtain ⟨a, read, same⟩ := Option.map_eq_some_iff.mp found
  cases same
  exact each a (HyprPilot.field_sound read)

theorem Variant.content_sound {α β : Type} {form : Form α} {make : α → β} {Valid : β → Prop}
    (each : ∀ a, form.Valid a → Valid (make a)) : (Variant.content form make).Sound Valid := by
  refine Variant.data_sound fun {v b} found => ?_
  obtain ⟨a, read, same⟩ := Option.map_eq_some_iff.mp found
  cases same
  exact each a (form.sound read)

theorem mem_of_asVariant {α : Type} {variants : List (String × α)} {v : Json} {a : α}
    (read : (Json.asVariant variants v).toOption = some a) : ∃ name, (name, a) ∈ variants := by
  have named {name : String} {b : α} (found : Json.variantNamed variants name = .ok b) :
      ∃ name, (name, b) ∈ variants := by
    unfold Json.variantNamed at found
    split at found
    · next listed =>
      cases found
      obtain ⟨before, after, shape, -⟩ := List.lookup_eq_some_iff.mp listed
      exact ⟨name, by simp [shape]⟩
    · cases found
  cases outcome : Json.asVariant variants v with
  | error e =>
    rw [outcome] at read
    cases read
  | ok b =>
    rw [outcome] at read
    cases read
    unfold Json.asVariant at outcome
    split at outcome
    · exact named outcome
    · obtain ⟨b, found, rest⟩ := Collect.bind_ok outcome
      split at rest
      · cases rest
        exact named found
      · cases rest
    · cases outcome
    · cases outcome

theorem readTagged_sound {α : Type} {tag content : String} {variants : List (String × Variant α)}
    {Valid : α → Prop} (each : ∀ entry ∈ variants, entry.2.Sound Valid) {fields : List (String × Json)}
    {a : α} (read : readTagged tag content variants fields = some a) : Valid a := by
  obtain ⟨name, -, read⟩ := Option.bind_eq_some_iff.mp read
  cases name with
  | none => cases read
  | some name =>
    obtain ⟨variant, found, read⟩ := Option.bind_eq_some_iff.mp read
    obtain ⟨v, -, read⟩ := Option.bind_eq_some_iff.mp read
    obtain ⟨key, listed⟩ := mem_of_asVariant found
    exact each _ listed _ _ read

theorem readAdjacent_sound {α : Type} {tag content : String} {variants : List (String × Variant α)}
    {Valid : α → Prop} (each : ∀ entry ∈ variants, entry.2.Sound Valid) {v : Json} {a : α}
    (read : readAdjacent tag content variants v = some a) : Valid a := by
  unfold readAdjacent at read
  split at read
  · exact readTagged_sound each read
  · obtain ⟨variant, found, read⟩ := Option.bind_eq_some_iff.mp read
    obtain ⟨key, listed⟩ := mem_of_asVariant found
    exact each _ listed _ _ read
  · cases read

def writeTagged (tag content : String) : String × Option Json → List (String × Json)
  | (name, none) => [(tag, .str name)]
  | (name, some v) => [(tag, .str name), (content, v)]

theorem readTagged_write {α : Type} {tag content : String} {variants : List (String × Variant α)}
    {parts : String × Option Json} {a : α} (differ : content ≠ tag)
    {before : List (String × Json)} (fresh : ∀ f ∈ before, f.1 ≠ tag ∧ f.1 ≠ content)
    (listed : (variants.lookup parts.1).bind (fun v => v.readContent parts.2) = some a) :
    readTagged tag content variants (before ++ writeTagged tag content parts) = some a := by
  have noTag : before.filter (·.1 == tag) = [] := by
    simpa [List.filter_eq_nil_iff] using fun k x inside => (fresh (k, x) inside).1
  have noContent : before.filter (·.1 == content) = [] := by
    simpa [List.filter_eq_nil_iff] using fun k x inside => (fresh (k, x) inside).2
  obtain ⟨name, v⟩ := parts
  obtain ⟨variant, found, read⟩ := Option.bind_eq_some_iff.mp listed
  have first : once tag (before ++ writeTagged tag content (name, v)) = some (some (.str name)) := by
    cases v <;> simp [once, writeTagged, noTag, differ]
  have second : once content (before ++ writeTagged tag content (name, v)) = some v := by
    cases v <;> simp [once, writeTagged, noContent, differ.symm]
  have named : (Json.asVariant variants (.str name)).toOption = some variant := by
    rw [Json.asVariant, Json.variantNamed, found]
    rfl
  simp only [readTagged, first, second, named, Option.bind_eq_bind, Option.bind_some, read]

theorem fits_tagged {tag content : String} {parts : String × Option Json} {levels : Nat}
    (differ : content ≠ tag) {before : List (String × Json)}
    (fresh : ∀ f ∈ before, f.1 ≠ tag ∧ f.1 ≠ content) (distinct : (before.map Prod.fst).Nodup)
    (each : ∀ f ∈ before, Fits NoFloat levels f.2) (inner : ∀ v ∈ parts.2, Fits NoFloat levels v) :
    Fits NoFloat (levels + 1) (.obj (before ++ writeTagged tag content parts)) := by
  obtain ⟨name, v⟩ := parts
  have tagged : ∀ f ∈ writeTagged tag content (name, v), Fits NoFloat levels f.2 := by
    cases v with
    | none => simpa [writeTagged] using Fits.str name
    | some v => simpa [writeTagged] using ⟨Fits.str name, inner v rfl⟩
  have keys : ((writeTagged tag content (name, v)).map Prod.fst).Nodup := by
    cases v <;> simp [writeTagged, differ.symm]
  have apart : ∀ f ∈ before, ∀ g ∈ writeTagged tag content (name, v), f.1 ≠ g.1 := by
    intro f inside
    obtain ⟨noTag, noContent⟩ := fresh f inside
    cases v <;> simp [writeTagged, noTag, noContent]
  refine .obj ?_ (List.forall_mem_append.mpr ⟨each, tagged⟩)
  rw [List.map_append]
  refine List.nodup_append.mpr ⟨distinct, keys, ?_⟩
  intro key first other second
  obtain ⟨f, inside, rfl⟩ := List.mem_map.mp first
  obtain ⟨g, within, rfl⟩ := List.mem_map.mp second
  exact apart f inside g within

/-- The form of a union whose kinds have a content or none. -/
def Form.tagged {α : Type} (tag content : String) (parts : α → String × Option Json)
    (variants : List (String × Variant α)) (Valid : α → Prop) (levels : Nat)
    (differ : content ≠ tag)
    (fits : ∀ a, Valid a → ∀ v ∈ (parts a).2, Fits NoFloat levels v)
    (listed : ∀ a, Valid a →
      (variants.lookup (parts a).1).bind (fun v => v.readContent (parts a).2) = some a)
    (each : ∀ entry ∈ variants, entry.2.Sound Valid) : Form α where
  write a := .obj (writeTagged tag content (parts a))
  read := readAdjacent tag content variants
  Valid := Valid
  levels := levels + 1
  fits {a} valid := by
    have fresh : ∀ f ∈ ([] : List (String × Json)), f.1 ≠ tag ∧ f.1 ≠ content := by simp
    exact fits_tagged differ fresh List.nodup_nil (by simp) (fits a valid)
  back {a} valid := by
    have fresh : ∀ f ∈ ([] : List (String × Json)), f.1 ≠ tag ∧ f.1 ≠ content := by simp
    exact readTagged_write differ fresh (listed a valid)
  sound read := readAdjacent_sound each read

end HyprPilot
