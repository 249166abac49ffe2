import HyprPilot.Base.Pieces
import HyprPilot.Core.Events

/-!
# The fields of a payload

The kinds of the event table with their documented keys. A payload is the values joined by commas;
the last value may hold commas itself. Four kinds read it to the end of the line, the others up to
its first comma.
-/

namespace HyprPilot

inductive EventKind where
  | openwindow | closewindow | movewindow | movewindowv2 | windowtitle | windowtitlev2
  | activewindow | activewindowv2 | workspace | workspacev2 | focusedmon | fullscreen
  | changefloatingmode | monitoradded | monitorremoved | monitoraddedv2 | submap | pin | urgent
  | configreloaded
  deriving DecidableEq

namespace EventKind

def name : EventKind → String
  | openwindow => "openwindow"
  | closewindow => "closewindow"
  | movewindow => "movewindow"
  | movewindowv2 => "movewindowv2"
  | windowtitle => "windowtitle"
  | windowtitlev2 => "windowtitlev2"
  | activewindow => "activewindow"
  | activewindowv2 => "activewindowv2"
  | workspace => "workspace"
  | workspacev2 => "workspacev2"
  | focusedmon => "focusedmon"
  | fullscreen => "fullscreen"
  | changefloatingmode => "changefloatingmode"
  | monitoradded => "monitoradded"
  | monitorremoved => "monitorremoved"
  | monitoraddedv2 => "monitoraddedv2"
  | submap => "submap"
  | pin => "pin"
  | urgent => "urgent"
  | configreloaded => "configreloaded"

/-- The documented fields, in the order of the payload. -/
def keys : EventKind → List String
  | openwindow => ["address", "workspace", "class", "title"]
  | closewindow | windowtitle | activewindowv2 | urgent => ["address"]
  | movewindow => ["address", "workspace"]
  | movewindowv2 => ["address", "workspace_id", "workspace"]
  | windowtitlev2 => ["address", "title"]
  | activewindow => ["class", "title"]
  | workspace | monitoradded | monitorremoved | submap => ["name"]
  | workspacev2 => ["id", "name"]
  | focusedmon => ["monitor", "workspace"]
  | fullscreen => ["state"]
  | changefloatingmode => ["address", "floating"]
  | monitoraddedv2 => ["id", "name", "description"]
  | pin => ["address", "state"]
  | configreloaded => []

/-- The tail of the payload is joined again. -/
def Rejoins (kind : EventKind) : Prop :=
  kind ∈ [openwindow, windowtitlev2, activewindow, monitoraddedv2]

instance : DecidablePred Rejoins := fun _ => inferInstanceAs (Decidable (_ ∈ _))

theorem keys_nodup (kind : EventKind) : kind.keys.Nodup := by cases kind <;> decide

theorem rejoins_keys {kind : EventKind} (rejoins : kind.Rejoins) : 2 ≤ kind.keys.length := by
  cases kind <;> first | decide | exact absurd rejoins (by decide)

end EventKind

namespace Event

/-! ### Documented fields -/

/-- The address with exactly one `0x`. -/
def hexAddress (s : String) : String := "0x" ++ (Text.stripPrefix "0x" s).getD s

def shown (key value : String) : String := if key = "address" then hexAddress value else value

def documented (kind : EventKind) (values : List String) : List (String × String) :=
  (kind.keys.zip values).map fun field => (field.1, shown field.1 field.2)

theorem normalizeAddr_eq (s : String) : normalizeAddr s = hexAddress s := by
  rw [normalizeAddr, hexAddress]
  by_cases hex : Text.startsWith "0x" s = true
  · obtain ⟨digits, rfl⟩ := Text.startsWith_iff.mp hex
    rw [if_pos hex, Text.stripPrefix_eq_some.mpr rfl, Option.getD_some]
  · have none : Text.stripPrefix "0x" s = none := by
      rw [Option.eq_none_iff_forall_ne_some]
      intro digits stripped
      exact hex (Text.startsWith_iff.mpr ⟨digits, Text.stripPrefix_eq_some.mp stripped⟩)
    rw [if_neg hex, none, Option.getD_none]

/-- The last value as the kind reads it from the pieces of the payload. -/
def lastRead (kind : EventKind) (piece : String) (more : List String) : String :=
  if kind.Rejoins then commaJoin (piece :: more) else piece

theorem extractFields_kind {kind : EventKind} {front more : List String} {piece data : String}
    (arity : front.length + 1 = kind.keys.length) (inhabited : data.isEmpty = false)
    (parts : Text.splitOn ',' data = front ++ piece :: more) :
    extractFields kind.name data = documented kind (front ++ [lastRead kind piece more]) := by
  unfold extractFields
  rw [if_neg (by rw [inhabited]; exact Bool.false_ne_true), parts]
  have short : front.length = kind.keys.length - 1 := by omega
  cases kind with
  | openwindow =>
    obtain ⟨a, b, c, rfl⟩ := List.length_eq_three.mp short
    simp only [List.cons_append, List.nil_append, EventKind.name, normalizeAddr_eq]
    rfl
  | movewindowv2 | monitoraddedv2 =>
    obtain ⟨a, b, rfl⟩ := List.length_eq_two.mp short
    simp only [List.cons_append, List.nil_append, EventKind.name, normalizeAddr_eq]
    rfl
  | movewindow | windowtitlev2 | activewindow | workspacev2 | focusedmon | changefloatingmode | pin =>
    obtain ⟨a, rfl⟩ := List.length_eq_one_iff.mp short
    simp only [List.cons_append, List.nil_append, EventKind.name, normalizeAddr_eq]
    rfl
  | configreloaded => cases arity
  | _ =>
    obtain rfl := List.length_eq_zero_iff.mp short
    simp only [List.nil_append, EventKind.name, normalizeAddr_eq]
    rfl

theorem lookup_zip_last {keys values : List String} {key : String} (fresh : key ∉ keys)
    (arity : values.length = keys.length) (value : String) :
    (((keys ++ [key]).zip (values ++ [value])).map fun field => (field.1, shown field.1 field.2)).lookup
      key = some (shown key value) := by
  induction keys generalizing values with
  | nil =>
    rw [List.length_eq_zero_iff.mp arity]
    simp
  | cons first rest ih =>
    obtain ⟨v, more, rfl⟩ := List.exists_cons_of_length_eq_add_one arity
    rw [List.mem_cons, not_or] at fresh
    have others := ih fresh.2 (Nat.succ.inj arity)
    simpa [List.lookup_cons, beq_eq_false_iff_ne.mpr fresh.1] using others

theorem lookup_documented_last {kind : EventKind} {keys front : List String} {key : String}
    (shape : kind.keys = keys ++ [key]) (arity : front.length = keys.length) (value : String) :
    (documented kind (front ++ [value])).lookup key = some (shown key value) := by
  have distinct := kind.keys_nodup
  rw [shape] at distinct
  rw [documented, shape]
  have fresh : key ∉ keys := by
    intro inside
    exact (List.nodup_append.mp distinct).2.2 key inside key (List.mem_singleton_self key) rfl
  exact lookup_zip_last fresh arity value

/-! ### Payloads -/

def hexDigit (c : Char) : Bool := c.isDigit || ('a' ≤ c && c ≤ 'f') || ('A' ≤ c && c ≤ 'F')

def IsAddress (s : String) : Prop :=
  ∃ digits, digits ≠ [] ∧ (∀ c ∈ digits, hexDigit c = true) ∧
    (s.toList = digits ∨ s.toList = '0' :: 'x' :: digits)

/-- Values for the documented fields, of which only the last may hold a comma. -/
structure Filled (kind : EventKind) (values : List String) : Prop where
  arity : values.length = kind.keys.length
  clear : ∀ value ∈ values.dropLast, ',' ∉ value.toList
  addresses : ∀ field ∈ kind.keys.zip values, field.1 = "address" → IsAddress field.2

/-- The kind joins its tail again, or has no fields, or the last value has no comma in it and the
payload is not empty. -/
def LastKept (kind : EventKind) (values : List String) : Prop :=
  kind.Rejoins ∨ kind.keys = [] ∨ values ≠ [""] ∧ ',' ∉ (values.getLastD "").toList

theorem IsAddress.clear {s : String} (address : IsAddress s) : ',' ∉ s.toList := by
  obtain ⟨digits, -, hex, shape⟩ := address
  have plain : ',' ∉ digits := fun inside => absurd (hex _ inside) (by decide)
  rcases shape with bare | prefixed
  · rw [bare]
    exact plain
  · rw [prefixed]
    simp [plain]

theorem values_of_empty {values : List String} (empty : (commaJoin values).isEmpty = true) :
    values = [] ∨ values = [""] := by
  rw [String.isEmpty_iff] at empty
  cases values with
  | nil => exact Or.inl rfl
  | cons first rest =>
    right
    cases rest with
    | nil => exact congrArg (fun s => [s]) empty
    | cons second more =>
      rw [commaJoin, Text.joinWith_cons "," first (by simp)] at empty
      have blank := congrArg String.toList empty
      simp at blank

theorem splitOn_payload {front : List String} (clear : ∀ value ∈ front, ',' ∉ value.toList)
    (last : String) : ∃ piece more, Text.splitOn ',' last = piece :: more ∧
      Text.splitOn ',' (commaJoin (front ++ [last])) = front ++ piece :: more := by
  have whole : Text.splitOn ',' (commaJoin (front ++ [last])) = front ++ Text.splitOn ',' last :=
    Text.splitOn_joinWith_concat clear last
  obtain ⟨piece, more, shape⟩ : ∃ piece more, Text.splitOn ',' last = piece :: more := by
    apply List.exists_cons_of_ne_nil
    simp [Text.splitOn]
  exact ⟨piece, more, shape, by rw [whole, shape]⟩

theorem lastRead_eq_iff {kind : EventKind} {last piece : String} {more : List String}
    (parts : Text.splitOn ',' last = piece :: more) :
    lastRead kind piece more = last ↔ kind.Rejoins ∨ ',' ∉ last.toList := by
  have joined : commaJoin (piece :: more) = last := by
    rw [← parts]
    exact Text.joinWith_splitOn ',' last
  rw [lastRead]
  by_cases rejoins : kind.Rejoins
  · rw [if_pos rejoins]
    exact iff_of_true joined (Or.inl rejoins)
  · rw [if_neg rejoins]
    constructor
    · intro whole
      right
      rw [← whole]
      exact Text.absent_of_mem_splitOn (s := last) (parts ▸ List.mem_cons_self)
    · rintro (joins | clear)
      · exact absurd joins rejoins
      · rw [Text.splitOn_of_absent clear] at parts
        exact (List.cons.inj parts).1.symm

theorem fields_of_parts {kind : EventKind} {front : List String} {last : String}
    (filled : Filled kind (front ++ [last])) (inhabited : (commaJoin (front ++ [last])).isEmpty = false) :
    (∀ key, (fromRaw ⟨kind.name, commaJoin (front ++ [last])⟩).field key =
      (documented kind (front ++ [last])).lookup key) ↔ kind.Rejoins ∨ ',' ∉ last.toList := by
  have clear := filled.clear
  rw [List.dropLast_concat] at clear
  obtain ⟨piece, more, parts, whole⟩ := splitOn_payload clear last
  have arity : front.length + 1 = kind.keys.length := by
    rw [← filled.arity, List.length_append, List.length_singleton]
  have read : (fromRaw ⟨kind.name, commaJoin (front ++ [last])⟩).fields =
      documented kind (front ++ [lastRead kind piece more]) :=
    extractFields_kind arity inhabited whole
  rw [← lastRead_eq_iff parts]
  constructor
  · intro same
    obtain ⟨keys, key, shape⟩ : ∃ keys key, kind.keys = keys ++ [key] := by
      refine ⟨kind.keys.dropLast, kind.keys.getLast ?_, (List.dropLast_concat_getLast _).symm⟩
      exact List.ne_nil_of_length_eq_add_one arity.symm
    have short : front.length = keys.length := by
      rw [shape, List.length_append, List.length_singleton] at arity
      exact Nat.succ.inj arity
    have value := same key
    rw [field, read, lookup_documented_last shape short, lookup_documented_last shape short,
      Option.some_inj] at value
    by_cases isAddress : key = "address"
    · have member : (key, last) ∈ kind.keys.zip (front ++ [last]) := by
        rw [shape, List.zip_append short.symm]
        exact List.mem_append_right _ (List.mem_singleton_self _)
      have address := filled.addresses _ member isAddress
      exact (lastRead_eq_iff parts).mpr (Or.inr address.clear)
    · rw [shown, if_neg isAddress, shown, if_neg isAddress] at value
      exact value
  · intro same key
    rw [field, read, same]

/-- The documented fields come out with their values exactly when the last value is kept. -/
theorem fields_documented_iff {kind : EventKind} {values : List String} (filled : Filled kind values) :
    (∀ key, (fromRaw ⟨kind.name, commaJoin values⟩).field key = (documented kind values).lookup key) ↔
      LastKept kind values := by
  rcases List.eq_nil_or_concat values with rfl | ⟨front, last, rfl⟩
  · have bare : kind.keys = [] := List.length_eq_zero_iff.mp filled.arity.symm
    refine iff_of_true ?_ (Or.inr (Or.inl bare))
    intro key
    rw [documented, bare]
    rfl
  · rw [List.concat_eq_append] at filled ⊢
    have keyed : kind.keys ≠ [] := by
      intro bare
      have arity := filled.arity
      simp [bare] at arity
    have shape : LastKept kind (front ++ [last]) ↔
        kind.Rejoins ∨ front ++ [last] ≠ [""] ∧ ',' ∉ last.toList := by
      rw [LastKept, List.getLastD_concat, or_iff_right keyed]
    rw [shape]
    by_cases empty : (commaJoin (front ++ [last])).isEmpty = true
    · have single : front ++ [last] = [""] := by
        rcases values_of_empty empty with none | single
        · simp at none
        · exact single
      have arity := filled.arity
      rw [single, List.length_singleton] at arity
      rw [single]
      apply iff_of_false
      · intro same
        obtain ⟨key, only⟩ := List.length_eq_one_iff.mp arity.symm
        have value := same key
        have shown : (documented kind ([] ++ [""])).lookup key = some (Event.shown key "") :=
          lookup_documented_last (show kind.keys = [] ++ [key] from only) rfl ""
        rw [List.nil_append] at shown
        rw [shown] at value
        cases value
      · rintro (rejoins | ⟨several, -⟩)
        · have wide := EventKind.rejoins_keys rejoins
          omega
        · exact several rfl
    · rw [Bool.not_eq_true] at empty
      rw [fields_of_parts filled empty]
      have several : front ++ [last] ≠ [""] := by
        intro single
        rw [single] at empty
        cases empty
      rw [and_iff_right several]

theorem windowtitle_documented : Filled .windowtitlev2 ["abc", "A, B"] ∧
    ∀ key, (fromRaw ⟨"windowtitlev2", "abc,A, B"⟩).field key =
      [("address", "0xabc"), ("title", "A, B")].lookup key := by
  have filled : Filled .windowtitlev2 ["abc", "A, B"] :=
    { arity := rfl
      clear := by decide
      addresses := by
        intro field listed isAddress
        rcases List.mem_cons.mp listed with rfl | later
        · have hex : "abc".toList.all hexDigit = true := by decide
          exact ⟨"abc".toList, by decide, List.all_eq_true.mp hex, Or.inl rfl⟩
        · rw [List.mem_singleton.mp later] at isAddress
          exact absurd isAddress (show "title" ≠ "address" by decide) }
  exact ⟨filled, (fields_documented_iff filled).mpr (Or.inl (by decide))⟩

/-- A workspace name is cut at its comma, and leaving a submap gives no name at all. -/
theorem workspace_cut : Filled .workspace ["web, mail"] ∧
    (fromRaw ⟨"workspace", "web, mail"⟩).field "name" = some "web" ∧
    (documented .workspace ["web, mail"]).lookup "name" = some "web, mail" ∧
      Filled .submap [""] ∧ (fromRaw ⟨"submap", ""⟩).fields = [] ∧
        (documented .submap [""]).lookup "name" = some "" := by
  have nameless (value : String) : ∀ field ∈ ["name"].zip [value], field.1 = "address" → IsAddress field.2 := by
    intro field listed isAddress
    rw [List.mem_singleton.mp listed] at isAddress
    exact absurd isAddress (show "name" ≠ "address" by decide)
  exact ⟨⟨rfl, by decide, nameless _⟩, by decide, by decide, ⟨rfl, by decide, nameless _⟩, by decide,
    by decide⟩

end Event

end HyprPilot
