import WeakComponents.Json.Printer
import WeakComponents.Json.Reader

/-!
# Node ids

The id of a node as its source assigns it: a sparse 64-bit natural. An id is read from decimal
text with an optional leading `n` and an optional plus sign, and written as plain decimal text.
-/

namespace WeakComponents

/-- The id that the source of a graph gives to a node. -/
structure NodeId where
  value : UInt64
deriving DecidableEq, Hashable

namespace NodeId

instance : LT NodeId := ⟨fun a b ↦ a.value < b.value⟩

instance : LE NodeId := ⟨fun a b ↦ a.value ≤ b.value⟩

instance (a b : NodeId) : Decidable (a < b) := inferInstanceAs (Decidable (a.value < b.value))

instance (a b : NodeId) : Decidable (a ≤ b) := inferInstanceAs (Decidable (a.value ≤ b.value))

instance : Inhabited NodeId := ⟨⟨0⟩⟩

def text (id : NodeId) : String :=
  Decimal.text id.value.toNat

/-- The text of an id in a diagnostic, with its type. -/
def debugText (id : NodeId) : String :=
  "NodeId(" ++ id.text ++ ")"

def debugListText (ids : List NodeId) : String :=
  "[" ++ ", ".intercalate (ids.map debugText) ++ "]"

def toJson (id : NodeId) : Json :=
  .ofUInt64 id.value

/-- Why a text is not a number below `2 ^ 64`. -/
inductive Rejection where
  | empty
  | invalidDigit
  | tooLarge
deriving DecidableEq

def Rejection.message : Rejection → String
  | empty => "cannot parse integer from empty string"
  | invalidDigit => "invalid digit found in string"
  | tooLarge => "number too large to fit in target type"

structure ParseError where
  text : String
  reason : Rejection
deriving DecidableEq

def ParseError.message (error : ParseError) : String :=
  "Invalid node id '" ++ error.text ++ "': " ++ error.reason.message

/--
The number that digits stand for when they follow the number `total`. A character that is not a
digit is met before the number grows too large by it.
-/
def ofDigits? (total : Nat) : List Char → Except Rejection Nat
  | [] => .ok total
  | c :: cs =>
    match Decimal.digit? c with
    | none => .error .invalidDigit
    | some digit =>
      if 10 * total + digit < UInt64.size then ofDigits? (10 * total + digit) cs
      else .error .tooLarge

/-- Reads a number with an optional plus sign; a sign alone is an invalid digit. -/
def unprefixed? : List Char → Except Rejection Nat
  | [] => .error .empty
  | ['+'] => .error .invalidDigit
  | '+' :: cs => ofDigits? 0 cs
  | cs => ofDigits? 0 cs

def dropMark : List Char → List Char
  | 'n' :: cs => cs
  | cs => cs

/-- Reads a decimal id with an optional leading `n`. -/
def parse (text : String) : Except ParseError NodeId :=
  match unprefixed? (dropMark text.toList) with
  | .ok value => .ok ⟨value.toUInt64⟩
  | .error reason => .error ⟨text, reason⟩

def ofJsonText (document : String) : Except Json.Problem NodeId := do
  return ⟨← Json.readDocument Json.Read.natural document⟩

def sort (ids : List NodeId) : List NodeId :=
  ids.mergeSort fun a b ↦ decide (a ≤ b)

end NodeId

end WeakComponents
