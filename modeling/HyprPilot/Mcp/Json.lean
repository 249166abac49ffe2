import HyprPilot.Base.Collect
import HyprPilot.Base.Text

/-!
# JSON arguments

JSON values, and the reading of a parameter struct from one: from an object by field name, unknown
fields ignored, or from an array by position. A field with a default may be missing.
-/

namespace HyprPilot

inductive Json where
  | null
  | bool (b : Bool)
  /-- A number written without fraction and exponent. -/
  | int (n : Int)
  /-- Any other number, as it is printed. -/
  | float (text : String)
  | str (s : String)
  | arr (items : List Json)
  | obj (fields : List (String × Json))

namespace Json

abbrev Result := Except String

def unexpected : Json → String
  | .null => "null"
  | .bool true => "boolean `true`"
  | .bool false => "boolean `false`"
  | .int n => "integer `" ++ toString n ++ "`"
  | .float text => "floating point `" ++ text ++ "`"
  | .str s => "string " ++ Text.debug s
  | .arr _ => "sequence"
  | .obj _ => "map"

def invalidType {α : Type} (value : Json) (expected : String) : Result α :=
  .error ("invalid type: " ++ value.unexpected ++ ", expected " ++ expected)

def asBool : Json → Result Bool
  | .bool b => .ok b
  | value => invalidType value "a boolean"

def asString : Json → Result String
  | .str s => .ok s
  | value => invalidType value "a string"

def asInt (type : String) (low high : Int) : Json → Result Int
  | .int n =>
    if low ≤ n ∧ n ≤ high then .ok n
    else .error ("invalid value: integer `" ++ toString n ++ "`, expected " ++ type)
  | value => invalidType value type

def asI32 : Json → Result Int := asInt "i32" (-2147483648) 2147483647

def asNat (type : String) (high : Int) (value : Json) : Result Nat :=
  (asInt type 0 high value).map Int.toNat

def asU32 : Json → Result Nat := asNat "u32" 4294967295

def asU8 : Json → Result Nat := asNat "u8" 255

def asUsize : Json → Result Nat := asNat "usize" 18446744073709551615

def asOption {α : Type} (read : Json → Result α) : Json → Result (Option α)
  | .null => .ok none
  | value => (read value).map some

/-- What was expected instead of an unknown name. -/
def oneOf : List String → String
  | [] => "there are no variants"
  | [a] => "expected `" ++ a ++ "`"
  | [a, b] => "expected `" ++ a ++ "` or `" ++ b ++ "`"
  | names => "expected one of " ++ Text.joinWith ", " (names.map fun name => "`" ++ name ++ "`")

def variantNamed {α : Type} (variants : List (String × α)) (name : String) : Result α :=
  match variants.lookup name with
  | some a => .ok a
  | none => .error ("unknown variant `" ++ name ++ "`, " ++ oneOf (variants.map Prod.fst))

/-- A unit variant: its name, or a map from its name to null. -/
def asVariant {α : Type} (variants : List (String × α)) : Json → Result α
  | .str name => variantNamed variants name
  | .obj [(name, value)] => do
    let a ← variantNamed variants name
    match value with
    | .null => .ok a
    | value => invalidType value "unit"
  | .obj _ => .error "invalid value: map, expected map with a single key"
  | value => invalidType value "string or map"

/-! ### Structs -/

/-- The field of a struct: its position and its name. -/
def param (index : Nat) (name : String) : Json → Option Json
  | .obj fields => fields.lookup name
  | .arr items => items[index]?
  | _ => none

def struct {α : Type} (name : String) (arity : Nat) (fields : Json → Result α) (args : Json) :
    Result α :=
  match args with
  | .obj _ => fields args
  | .arr items => do
    let a ← fields args
    if items.length ≤ arity then .ok a
    else
      .error ("invalid length " ++ toString items.length ++ ", expected fewer elements in array")
  | value => invalidType value ("struct " ++ name)

theorem struct_ok {α : Type} {name : String} {arity : Nat} {fields : Json → Result α} {args : Json}
    {a : α} (read : struct name arity fields args = .ok a) : fields args = .ok a := by
  unfold struct at read
  cases args with
  | obj _ => exact read
  | arr items =>
    obtain ⟨b, first, rest⟩ := Collect.bind_ok read
    split at rest
    · cases rest
      exact first
    · cases rest
  | _ => cases read

def missing {α : Type} (struct : String) (arity index : Nat) (name : String) : Json → Result α
  | .arr _ =>
    .error ("invalid length " ++ toString index ++ ", expected struct " ++ struct ++ " with " ++
      toString arity ++ if arity = 1 then " element" else " elements")
  | _ => .error ("missing field `" ++ name ++ "`")

def required {α : Type} (struct : String) (arity index : Nat) (name : String)
    (read : Json → Result α) (args : Json) : Result α :=
  match args.param index name with
  | some value => read value
  | none => missing struct arity index name args

def optional {α : Type} (index : Nat) (name : String) (read : Json → Result α) (default : α)
    (args : Json) : Result α :=
  match args.param index name with
  | some value => read value
  | none => .ok default

theorem required_string {struct name : String} {arity index : Nat} {args : Json} {s : String}
    (read : args.required struct arity index name asString = .ok s) :
    args.param index name = some (.str s) := by
  unfold required at read
  cases value : args.param index name with
  | none =>
    rw [value] at read
    cases args <;> cases read
  | some v =>
    rw [value] at read
    cases v with
    | str t =>
      cases read
      rfl
    | _ => cases read

/-- `dry_run` and its default, `true`. -/
def dryRun (index : Nat) (args : Json) : Result Bool := args.optional index "dry_run" asBool true

theorem dryRun_false {index : Nat} {args : Json} (read : args.dryRun index = .ok false) :
    args.param index "dry_run" = some (.bool false) := by
  unfold dryRun optional at read
  cases value : args.param index "dry_run" with
  | none =>
    rw [value] at read
    cases read
  | some v =>
    rw [value] at read
    cases v with
    | bool b =>
      cases b with
      | false => rfl
      | true => cases read
    | _ => cases read

theorem dryRun_of_false {index : Nat} {args : Json}
    (value : args.param index "dry_run" = some (.bool false)) : args.dryRun index = .ok false := by
  rw [dryRun, optional, value]
  rfl

end Json

end HyprPilot
