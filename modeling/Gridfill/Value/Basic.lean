import Gridfill.Calendar.Serial
import Gridfill.Number.Decimal
import Gridfill.Text.Cut

/-!
# Substitution values

The values that a caller supplies for placeholders. A value is a *scalar*, a *sequence* or something
that shows as nothing; a sequence whose first element is a mapping is a list of *records*. Fields of
a value are reached by a dotted key: a mapping has its entries as fields, and any other value has the
attributes that its class gives it. Which those are is not for the library to say, so the bindings
bring the lookup of attributes along with the values.
-/

namespace Gridfill

open Calendar (Date Reading Moment)
open Number (Double Decimal)

/-- A value that a caller supplies. -/
inductive Value where
  | null
  | bool (b : Bool)
  | int (n : Int)
  | float (x : Double)
  | decimal (d : Decimal)
  | text (s : String)
  | date (d : Date)
  | moment (m : Moment)
  | clock (r : Reading)
  | list (items : List Value)
  | tuple (items : List Value)
  | mapping (entries : List (String × Value))
  /-- A value of any other class; the label tells such values apart. -/
  | other (label : String)
deriving Inhabited

/-- What a caller supplies: the values for the names of placeholders, and what the lookup of an attribute
gives on a value that is no mapping. -/
structure Bindings where
  values : List (String × Value)
  attribute? : Value → String → Option Value

/-- How a value is laid out. -/
inductive ValueKind where
  | scalar
  | array
  | records
  | other
deriving DecidableEq, Repr

namespace ValueKind

/-- The word for the kind. -/
def word : ValueKind → String
  | .scalar => "scalar"
  | .array => "array"
  | .records => "records"
  | .other => "other"

/-- Is a value of the kind a sequence? -/
def isSequence : ValueKind → Bool
  | .array => true
  | .records => true
  | _ => false

end ValueKind

namespace Value

/-! ### Kinds -/

/-- Is the value a mapping from names to values? -/
def isMapping : Value → Bool
  | .mapping _ => true
  | _ => false

/-- The elements of a sequence. -/
def items? : Value → Option (List Value)
  | .list items => some items
  | .tuple items => some items
  | _ => none

/-- The kind of a sequence with the given elements. -/
def kindOfItems : List Value → ValueKind
  | [] => .array
  | v :: _ => if v.isMapping then .records else .array

/-- How the value is laid out. -/
def kind : Value → ValueKind
  | .list items => kindOfItems items
  | .tuple items => kindOfItems items
  | .mapping _ => .other
  | .other _ => .other
  | _ => .scalar

/-- Is the value a sequence? -/
def isSequence (v : Value) : Bool := v.kind.isSequence

theorem isSequence_eq_isSome_items? (v : Value) : v.isSequence = v.items?.isSome := by
  have key : ∀ items, (kindOfItems items).isSequence = true := by
    intro items
    cases items with
    | nil => rfl
    | cons v vs => cases h : v.isMapping <;> simp [kindOfItems, ValueKind.isSequence, h]
  cases v <;> simp [isSequence, kind, items?, ValueKind.isSequence] <;> exact key _

end Value

/-! ### Fields -/

/-- The field names of a dotted key. -/
def fieldPath (key : String) : List String := (Text.fields '.' key.toList).map String.ofList

namespace Bindings

/-- Values without attributes. -/
def ofValues (values : List (String × Value)) : Bindings := ⟨values, fun _ _ => none⟩

/-- The value for a name. -/
def lookup (data : Bindings) (name : String) : Option Value := data.values.lookup name

/-- The field of a value with the given name. -/
def field? (data : Bindings) (v : Value) (name : String) : Option Value :=
  match v with
  | .mapping entries => entries.lookup name
  | v => data.attribute? v name

/-- Follows a path of field names into a value. -/
def follow (data : Bindings) : List String → Value → Option Value
  | [], v => some v
  | name :: path, v => (data.field? v name).bind (data.follow path)

/-- The part of a value that a key names; without a key, the value. -/
def project (data : Bindings) (v : Value) : Option String → Option Value
  | none => some v
  | some key => data.follow (fieldPath key) v

/-- The part of an element that a key names; nothing stands for a part that is missing. -/
def part (data : Bindings) (key : Option String) (v : Value) : Value := (data.project v key).getD .null

/-- The parts of elements that a key names. -/
def parts (data : Bindings) (key : Option String) (items : List Value) : List Value :=
  items.map (data.part key)

/-- What the bindings supply for a name and a key. -/
def find? (data : Bindings) (name : String) (key : Option String) : Option Value :=
  (data.lookup name).bind fun v => data.project v key

end Bindings
end Gridfill
