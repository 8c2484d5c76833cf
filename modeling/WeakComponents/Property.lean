import WeakComponents.Schema
import WeakComponents.Slot

/-!
# Node properties

A property value is an integer of 64 bits or a binary64 number. A column holds the values of one
property for all slots, where a slot may have none.
-/

namespace WeakComponents

inductive PropertyValue where
  | long (value : Int64)
  | double (value : Float)

namespace PropertyValue

def numberType : PropertyValue → NumberType
  | long _ => .integer
  | double _ => .floating

/-- The binary64 number nearest to a value. -/
def toFloat : PropertyValue → Float
  | long value => value.toFloat
  | double value => value

end PropertyValue

/-- The values of one property, by slot. -/
inductive PropertyColumn where
  | long (cells : Array (Option Int64))
  | double (cells : Array (Option Float))

namespace PropertyColumn

def size : PropertyColumn → Nat
  | long cells => cells.size
  | double cells => cells.size

def isEmpty (column : PropertyColumn) : Bool :=
  column.size == 0

def numberType : PropertyColumn → NumberType
  | long _ => .integer
  | double _ => .floating

/-- The integer at `slot`; none beyond the column, and none in a floating column. -/
def long? (column : PropertyColumn) (slot : Slot) : Option Int64 :=
  match column with
  | long cells => cells[slot.toNat]?.join
  | double _ => none

/-- The value at `slot` as a floating number; none beyond the column. -/
def double? (column : PropertyColumn) (slot : Slot) : Option Float :=
  match column with
  | long cells => cells[slot.toNat]?.join.map Int64.toFloat
  | double cells => cells[slot.toNat]?.join

end PropertyColumn

end WeakComponents
