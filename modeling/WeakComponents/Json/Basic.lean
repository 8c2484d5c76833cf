/-!
# JSON values

Values of JSON documents as the library reads and writes them. A number keeps the class of its
spelling: a natural below `2 ^ 64`, a negative integer from `-2 ^ 63` on, or a binary64 number.
-/

namespace WeakComponents

/-- A JSON number, by the class of its spelling. -/
inductive Json.Number where
  | natural (value : UInt64)
  | negative (value : Int64)
  | real (value : Float)

/-- A JSON value. A reader lists the members of an object by ascending name, each name once. -/
inductive Json where
  | null
  | bool (value : Bool)
  | number (value : Json.Number)
  | text (value : String)
  | list (items : List Json)
  | object (members : List (String × Json))

namespace Json

/-- The member `name` of an object; no other value has members. -/
def get? (value : Json) (name : String) : Option Json :=
  match value with
  | object members => members.lookup name
  | _ => none

/-- The member `name`, with a null member counting as a missing one. -/
def given? (value : Json) (name : String) : Option Json :=
  match value.get? name with
  | none | some null => none
  | some member => some member

def natural? : Json → Option UInt64
  | number (.natural value) => some value
  | _ => none

def text? : Json → Option String
  | text value => some value
  | _ => none

/-- The binary64 number nearest to a number. -/
def real? : Json → Option Float
  | number (.natural value) => some value.toFloat
  | number (.negative value) => some value.toFloat
  | number (.real value) => some value
  | _ => none

def ofUInt64 (value : UInt64) : Json :=
  number (.natural value)

end Json

end WeakComponents
