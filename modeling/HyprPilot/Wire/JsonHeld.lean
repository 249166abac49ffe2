import HyprPilot.Wire.JsonValue
import Mathlib.Data.String.Basic

/-!
# JSON values in memory

A value in memory keeps the fields of an object sorted by key, the last one of a key that comes twice,
and of a fractional number the number that its text stands for. Whatever was read can be written.
-/

namespace HyprPilot

namespace Json

/-! ### Fields in a map -/

/-- One more field before the fields of a map; a later field of its key stays. -/
def keep (key : String) (value : Json) : List (String × Json) → List (String × Json)
  | [] => [(key, value)]
  | (other, v) :: rest =>
    if key < other then (key, value) :: (other, v) :: rest
    else if key = other then (other, v) :: rest
    else (other, v) :: keep key value rest

section Keep

variable {key : String} {value : Json} {fields : List (String × Json)}

theorem mem_keep {f : String × Json} (inside : f ∈ keep key value fields) :
    f = (key, value) ∨ f ∈ fields := by
  induction fields with
  | nil => simpa [keep] using inside
  | cons g rest ih =>
    rw [keep] at inside
    split at inside
    · exact List.mem_cons.mp inside
    · split at inside
      · exact .inr inside
      · rcases List.mem_cons.mp inside with rfl | later
        · exact .inr List.mem_cons_self
        · exact (ih later).imp_right (List.mem_cons_of_mem g)

theorem mem_keep_of_mem {f : String × Json} (inside : f ∈ fields) : f ∈ keep key value fields := by
  induction fields with
  | nil => cases inside
  | cons g rest ih =>
    rw [keep]
    split
    · exact List.mem_cons_of_mem _ inside
    · split
      · exact inside
      · rcases List.mem_cons.mp inside with rfl | later
        · exact List.mem_cons_self
        · exact List.mem_cons_of_mem g (ih later)

theorem mem_keep_self (fresh : ∀ f ∈ fields, f.1 ≠ key) : (key, value) ∈ keep key value fields := by
  induction fields with
  | nil => exact List.mem_cons_self
  | cons g rest ih =>
    obtain ⟨other, later⟩ := List.forall_mem_cons.mp fresh
    rw [keep]
    split
    · exact List.mem_cons_self
    · rw [if_neg other.symm]
      exact List.mem_cons_of_mem g (ih later)

theorem sorted_keep (sorted : fields.Pairwise fun f g => f.1 < g.1) :
    (keep key value fields).Pairwise fun f g => f.1 < g.1 := by
  induction fields with
  | nil => exact List.pairwise_singleton _ _
  | cons g rest ih =>
    obtain ⟨least, later⟩ := List.pairwise_cons.mp sorted
    rw [keep]
    split
    · next before =>
      refine List.pairwise_cons.mpr ⟨fun f inside => ?_, sorted⟩
      rcases List.mem_cons.mp inside with rfl | after
      · exact before
      · exact before.trans (least f after)
    · next notBefore =>
      split
      · exact sorted
      · next other =>
        have after : g.1 < key := lt_of_le_of_ne (not_lt.mp notBefore) (Ne.symm other)
        refine List.pairwise_cons.mpr ⟨fun f inside => ?_, ih later⟩
        rcases mem_keep inside with rfl | old
        · exact after
        · exact least f old

end Keep

/-! ### Values -/

section Held

variable (rounded : String → String)

mutual

def held : Json → Json
  | .null => .null
  | .bool b => .bool b
  | .int n => .int n
  | .float text => .float (rounded text)
  | .str s => .str s
  | .arr items => .arr (heldItems items)
  | .obj fields => .obj (heldFields fields)

def heldItems : List Json → List Json
  | [] => []
  | item :: rest => held item :: heldItems rest

def heldFields : List (String × Json) → List (String × Json)
  | [] => []
  | (key, value) :: rest => keep key (held value) (heldFields rest)

end

theorem heldItems_eq_map (items : List Json) : heldItems rounded items = items.map (held rounded) := by
  induction items with
  | nil => rfl
  | cons item rest ih => rw [heldItems, ih, List.map_cons]

theorem sorted_heldFields (fields : List (String × Json)) :
    (heldFields rounded fields).Pairwise fun f g => f.1 < g.1 := by
  induction fields with
  | nil => exact List.Pairwise.nil
  | cons f rest ih => exact sorted_keep ih

/-- The keys of a value in memory are distinct. -/
theorem distinct_heldFields (fields : List (String × Json)) :
    ((heldFields rounded fields).map Prod.fst).Nodup :=
  List.pairwise_map.mpr ((sorted_heldFields rounded fields).imp ne_of_lt)

theorem of_mem_heldFields {fields : List (String × Json)} {f : String × Json}
    (inside : f ∈ heldFields rounded fields) : ∃ v, (f.1, v) ∈ fields ∧ f.2 = held rounded v := by
  induction fields with
  | nil => cases inside
  | cons g rest ih =>
    rcases mem_keep inside with rfl | later
    · exact ⟨g.2, List.mem_cons_self, rfl⟩
    · obtain ⟨v, old, same⟩ := ih later
      exact ⟨v, List.mem_cons_of_mem g old, same⟩

/-- A field whose key comes once is kept. -/
theorem mem_heldFields {fields : List (String × Json)} {name : String} {f : String × Json}
    (once : fields.filter (·.1 == name) = [f]) : (name, held rounded f.2) ∈ heldFields rounded fields := by
  induction fields with
  | nil => cases once
  | cons g rest ih =>
    by_cases named : g.1 = name
    · rw [List.filter_cons_of_pos (by simpa using named)] at once
      obtain ⟨rfl, none⟩ := List.cons.inj once
      subst named
      apply mem_keep_self
      intro h inside same
      obtain ⟨v, old, -⟩ := of_mem_heldFields rounded inside
      have kept : (h.1, v) ∈ rest.filter (·.1 == g.1) := List.mem_filter.mpr ⟨old, by simpa using same⟩
      rw [none] at kept
      cases kept
    · rw [List.filter_cons_of_neg (by simpa using named)] at once
      exact mem_keep_of_mem (ih once)

end Held

end Json

namespace JsonText

/-! ### What is read can be held -/

section Items

variable {α : Type} {item : Reader α} {close : Char}

/-- Each of the items was read by the reader of items. -/
def ReadBy (item : Reader α) (items : List α) : Prop := ∀ a ∈ items, ∃ cs rest, item cs = some (a, rest)

theorem readBy_cons {a : α} {items : List α} {cs rest : List Char} (first : item cs = some (a, rest))
    (others : ReadBy item items) : ReadBy item (a :: items) :=
  List.forall_mem_cons.mpr ⟨⟨cs, rest, first⟩, others⟩

theorem more_readBy {fuel : Nat} {cs rest : List Char} {items : List α}
    (read : more item close fuel cs = some (items, rest)) : ReadBy item items := by
  induction fuel generalizing cs items with
  | zero => cases read
  | succ fuel ih =>
    rw [more] at read
    split at read
    · cases read
    · split at read
      · cases read
        exact fun a none => absurd none List.not_mem_nil
      · split at read
        · split at read
          · cases read
          · next a after first =>
            obtain ⟨⟨others, last⟩, found, same⟩ := Option.map_eq_some_iff.mp read
            cases same
            exact readBy_cons first (ih found)
        · cases read

theorem container_readBy {cs rest : List Char} {items : List α}
    (read : container item close cs = some (items, rest)) : ReadBy item items := by
  rw [container] at read
  split at read
  · cases read
  · split at read
    · cases read
      exact fun a none => absurd none List.not_mem_nil
    · split at read
      · cases read
      · next a after first =>
        obtain ⟨⟨others, last⟩, found, same⟩ := Option.map_eq_some_iff.mp read
        cases same
        exact readBy_cons first (more_readBy found)

theorem member_value {cs rest : List Char} {field : String × α}
    (read : member item cs = some (field, rest)) : ∃ cs rest, item cs = some (field.2, rest) := by
  unfold member at read
  split at read
  · obtain ⟨⟨key, after⟩, -, read⟩ := Option.bind_eq_some_iff.mp read
    obtain ⟨⟨a, last⟩, found, same⟩ := Option.map_eq_some_iff.mp read
    cases same
    unfold afterColon at found
    split at found
    · exact ⟨_, _, found⟩
    · cases found
  · cases read

end Items

theorem numberOf_cases {lexeme : List Char} {v : Json} (read : numberOf lexeme = some v) :
    (∃ n, InRange n ∧ v = .int n) ∨ v = .float (String.ofList lexeme) := by
  unfold numberOf at read
  dsimp only at read
  generalize (lexeme.head? == some '-') = negative at read
  generalize (if negative = true then lexeme.tail else lexeme) = body at read
  split at read
  · cases read
  · split at read
    · next range =>
      cases read
      exact .inl ⟨_, ⟨range.2.1, range.2.2.1⟩, rfl⟩
    · cases read
      exact .inr rfl

theorem number_fits {cs rest : List Char} {v : Json} (read : number cs = some (v, rest)) (depth : Nat) :
    Fits IsFloat depth (v.held id) := by
  obtain ⟨n, lexeme, same⟩ := Option.map_eq_some_iff.mp read
  cases same
  rcases numberOf_cases lexeme with ⟨n, range, rfl⟩ | rfl
  · exact .int range
  · refine .float ⟨?_, ?_⟩
    · rw [id, String.toList_ofList]
      exact lexeme
    · rw [id, String.toList_ofList]
      exact fun c inside => List.mem_takeWhile_imp inside

theorem scalar_fits {cs rest : List Char} {v : Json} (read : scalar cs = some (v, rest)) (depth : Nat) :
    Fits IsFloat depth (v.held id) := by
  rw [scalar.eq_def] at read
  split at read
  · obtain ⟨_, -, same⟩ := Option.map_eq_some_iff.mp read
    cases same
    exact .null
  · obtain ⟨_, -, same⟩ := Option.map_eq_some_iff.mp read
    cases same
    exact .bool true
  · obtain ⟨_, -, same⟩ := Option.map_eq_some_iff.mp read
    cases same
    exact .bool false
  · obtain ⟨⟨s, _⟩, -, same⟩ := Option.map_eq_some_iff.mp read
    cases same
    exact .str s
  · exact number_fits read depth

/-- Whatever is read of a text has distinct keys and a bounded depth once it is held. -/
theorem value_fits {depth : Nat} {cs rest : List Char} {v : Json}
    (read : value depth cs = some (v, rest)) : Fits IsFloat depth (v.held id) := by
  induction depth generalizing cs rest v with
  | zero => exact scalar_fits read 0
  | succ depth ih =>
    rw [value] at read
    split at read
    · obtain ⟨⟨items, _⟩, found, same⟩ := Option.map_eq_some_iff.mp read
      cases same
      rw [Json.held, Json.heldItems_eq_map]
      refine .arr (List.forall_mem_map.mpr fun item inside => ?_)
      obtain ⟨_, _, read⟩ := container_readBy found item inside
      exact ih read
    · obtain ⟨⟨fields, _⟩, found, same⟩ := Option.map_eq_some_iff.mp read
      cases same
      rw [Json.held]
      refine .obj (Json.distinct_heldFields id fields) fun f inside => ?_
      obtain ⟨w, old, same⟩ := Json.of_mem_heldFields id inside
      obtain ⟨_, _, read⟩ := container_readBy found _ old
      obtain ⟨_, _, read⟩ := member_value read
      rw [same]
      exact ih read
    · exact scalar_fits read _

theorem parse_fits {text : String} {v : Json} (read : parse text = some v) :
    Fits IsFloat 127 (v.held id) := by
  unfold parse at read
  split at read
  · next w rest found =>
    split at read
    · cases read
      exact value_fits found
    · cases read
  · cases read

end JsonText

end HyprPilot
