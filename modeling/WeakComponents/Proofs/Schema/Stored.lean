import WeakComponents.Proofs.Json.Objects
import WeakComponents.Schema

/-!
# Stored schemas

A schema is stored as an object of objects, with the names of labels and properties as quoted text
and the types by their names. Reading the text back gives the schema that was stored, whatever
characters the names contain, also where a label has no properties.
-/

namespace WeakComponents

open Json (Reads)

theorem NumberType.lookup_named (type : NumberType) : named.lookup type.name = some type := by
  cases type <;> rfl

namespace Schema

/-- Reads the types of the properties of one label. -/
def readTypes : Json.Reader (Table NumberType) :=
  Json.Read.mapping (Json.Read.namedCase NumberType.named)

/-- The object that the types of the properties of one label are stored as. -/
def storedTypes (table : Table NumberType) : Json :=
  .object (table.entries.map fun entry ↦ (entry.1, .text entry.2.name))

theorem reads_storedTypes (table : Table NumberType) :
    Reads readTypes (storedTypes table).render table := by
  apply Json.Read.reads_mapping fun type : NumberType ↦ .text type.name
  intro entry _
  exact Json.Read.reads_namedCase entry.2.lookup_named

theorem reads_toJson (schema : Schema) :
    Reads (Json.Read.only "properties" (Json.Read.mapping readTypes)) schema.toJson.render
      schema.properties := by
  apply Json.Read.reads_only
  apply Json.Read.reads_mapping storedTypes
  intro entry _
  exact reads_storedTypes entry.2

/-- A stored schema is read back as it was. -/
theorem ofJsonText_toText (schema : Schema) : ofJsonText schema.toJson.toText = .ok schema := by
  have hread := Json.readDocument_ofList (reads_toJson schema)
  change (Json.readDocument (Json.Read.only "properties" (Json.Read.mapping readTypes))
    (String.ofList schema.toJson.render) >>= _) = _
  rw [hread, ok_bind]
  rfl

end Schema

end WeakComponents
