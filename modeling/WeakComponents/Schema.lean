import WeakComponents.Json.Printer
import WeakComponents.Json.Reader

/-!
# Node schemas

A schema records for every label which numeric properties its nodes carry. It is built from
observations; observing a property of a label as an integer and as a floating number makes it
floating. A schema is written as JSON and read back from it.
-/

namespace WeakComponents

inductive NumberType where
  | integer
  | floating
deriving DecidableEq

namespace NumberType

def precedes (a b : NumberType) : Bool :=
  match a, b with
  | integer, floating => true
  | _, _ => false

/-- The common type of two observations of a property. -/
def widen (a b : NumberType) : NumberType :=
  match a, b with
  | integer, integer => integer
  | _, _ => floating

/-- The name of a type where a schema is shown to callers. -/
def displayName : NumberType → String
  | integer => "Integer"
  | floating => "Float"

/-- The name of a type in the JSON form of a schema. -/
def name : NumberType → String
  | integer => "Integer"
  | floating => "Floating"

def named : List (String × NumberType) :=
  [("Integer", integer), ("Floating", floating)]

end NumberType

/-- The numeric properties of every label. -/
structure Schema where
  /-- The types of a label's properties, by label and property name. -/
  properties : Table (Table NumberType)
deriving DecidableEq

namespace Schema

/-- The label of nodes that are loaded without one. -/
def allNodesLabel : String := "__ALL__"

def empty : Schema := ⟨.empty⟩

instance : Inhabited Schema := ⟨empty⟩

def addProperty (schema : Schema) (label property : String) (type : NumberType) : Schema :=
  ⟨schema.properties.upsert label fun known ↦
    (known.getD .empty).upsert property fun
      | some old => old.widen type
      | none => type⟩

/-- Makes sure that `label` is mentioned. -/
def addLabel (schema : Schema) (label : String) : Schema :=
  ⟨schema.properties.upsert label fun known ↦ known.getD .empty⟩

def labels (schema : Schema) : List String :=
  schema.properties.keys

def propertiesOf? (schema : Schema) (label : String) : Option (Table NumberType) :=
  schema.properties.get? label

/-- The type of `property` over all labels that carry it. -/
def propertyType? (schema : Schema) (property : String) : Option NumberType :=
  match schema.properties.values.filterMap fun table ↦ table.get? property with
  | [] => none
  | type :: others => some (others.foldl NumberType.widen type)

def isEmpty (schema : Schema) : Bool :=
  schema.properties.isEmpty

/-- The properties by label as an object of objects, the types named by `typeName`. -/
def toObject (schema : Schema) (typeName : NumberType → String) : Json :=
  .object (schema.properties.entries.map fun (label, table) ↦
    (label, .object (table.entries.map fun (property, type) ↦ (property, .text (typeName type)))))

/-- The form of a schema that is shown to callers. -/
def display (schema : Schema) : Json :=
  schema.toObject NumberType.displayName

def toJson (schema : Schema) : Json :=
  .object [("properties", schema.toObject NumberType.name)]

def ofJsonText (document : String) : Except Json.Problem Schema := do
  let types := Json.Read.mapping (Json.Read.namedCase NumberType.named)
  let properties ← Json.readDocument (Json.Read.only "properties" (Json.Read.mapping types)) document
  return ⟨properties⟩

end Schema

end WeakComponents
