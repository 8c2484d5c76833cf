import WeakComponents.Decimal.Natural
import WeakComponents.Json.Basic

/-!
# Lexemes of JSON text

Reading of blanks, literals, numbers and text values from the front of a document. Every reader
returns what it read and the rest of the document, or the class of the first problem it meets:
the text ends too early, it is malformed, or it is well formed but not what was asked for.
-/

namespace WeakComponents.Json

/-- The class of the first problem met in a document, from left to right. -/
inductive Problem where
  | truncated
  | malformed
  /-- The text is JSON so far, but not the value asked for. -/
  | mismatched
deriving DecidableEq

/-- A reader takes a value from the front of the characters of a document. -/
abbrev Reader (α : Type) :=
  List Char → Except Problem (α × List Char)

/-- The integer with these digits: a real if it is `-0` or does not fit in 64 bits. -/
def Number.ofDigits (negative : Bool) (significand : Nat) : Number :=
  if ¬ negative then .natural significand.toUInt64
  else if significand = 0 ∨ Nat.pow 2 63 < significand then .real (-significand.toUInt64.toFloat)
  else .negative (Int64.ofInt (-significand))

namespace Read

def isBlank (c : Char) : Bool :=
  c == ' ' || c == '\n' || c == '\t' || c == '\r'

def skipBlanks (cs : List Char) : List Char :=
  cs.dropWhile isBlank

def literal (word : List Char) (cs : List Char) : Except Problem (List Char) :=
  match word, cs with
  | [], cs => .ok cs
  | _ :: _, [] => .error .truncated
  | expected :: word, c :: cs =>
    if c = expected then literal word cs else .error .malformed

/-! ## Numbers -/

/-- The power `10 ^ exponent`, rounded once. -/
def powerOfTen (exponent : Nat) : Float :=
  Float.ofScientific 1 false exponent

/--
Divides by `10 ^ exponent`, by `10 ^ 308` at a time as long as the exponent exceeds the range of
binary64.
-/
def scaleDown (x : Float) (exponent : Nat) : Float :=
  if exponent ≤ 308 then x / powerOfTen exponent
  else if x == 0.0 then x
  else scaleDown (x / powerOfTen 308) (exponent - 308)
termination_by exponent

/--
The number `significand * 10 ^ exponent`, computed from the rounded significand by one
multiplication or by divisions; a number beyond the range of binary64 is malformed.
-/
def ofScientific (negative : Bool) (significand : Nat) (exponent : Int) :
    Except Problem Float :=
  let start := significand.toUInt64.toFloat
  let signed := fun (x : Float) ↦ if negative then -x else x
  if exponent < 0 then .ok (signed (scaleDown start exponent.natAbs))
  else if exponent ≤ 308 then
    let scaled := start * powerOfTen exponent.natAbs
    if scaled.isInf then .error .malformed else .ok (signed scaled)
  else if start == 0.0 then .ok (signed start)
  else .error .malformed

/-- The largest exponent that is computed with; a larger one is decided by its sign alone. -/
def exponentLimit : Nat := Nat.pow 2 31

/-- The digits of an exponent after its first one, `exponent` being the value so far. -/
def exponentDigits (negative : Bool) (significand : Nat) (offset : Int) (downward : Bool)
    (exponent : Nat) : Reader Float
  | [] => do
    let value ← ofScientific negative significand
      (if downward then offset - exponent else offset + exponent)
    return (value, [])
  | c :: cs =>
    match Decimal.digit? c with
    | some digit =>
      if exponent * 10 + digit < exponentLimit then
        exponentDigits negative significand offset downward (exponent * 10 + digit) cs
      else if significand ≠ 0 ∧ ¬ downward then .error .malformed
      else .ok (if negative then -0.0 else 0.0, cs.dropWhile fun c ↦ (Decimal.digit? c).isSome)
    | none => do
      let value ← ofScientific negative significand
        (if downward then offset - exponent else offset + exponent)
      return (value, c :: cs)

def exponentPart (negative : Bool) (significand : Nat) (offset : Int) : Reader Float := fun cs ↦
  let (downward, cs) :=
    match cs with
    | '+' :: cs => (false, cs)
    | '-' :: cs => (true, cs)
    | cs => (false, cs)
  match cs with
  | [] => .error .truncated
  | c :: cs =>
    match Decimal.digit? c with
    | some digit => exponentDigits negative significand offset downward digit cs
    | none => .error .malformed

/-- What may follow the digits of a number that is not an integer any more. -/
def realTail (negative : Bool) (significand : Nat) (offset : Int) : Reader Float
  | 'e' :: cs | 'E' :: cs => exponentPart negative significand offset cs
  | cs => do return (← ofScientific negative significand offset, cs)

/--
The digits after the point. Each lowers the offset by one; once the significand would leave
64 bits the further ones are ignored.
-/
def fractionDigits (negative : Bool) (significand : Nat) (offset : Int) : Reader Float
  | [] => realTail negative significand offset []
  | c :: cs =>
    match Decimal.digit? c with
    | some digit =>
      if significand * 10 + digit < UInt64.size then
        fractionDigits negative (significand * 10 + digit) (offset - 1) cs
      else
        realTail negative significand offset (cs.dropWhile fun c ↦ (Decimal.digit? c).isSome)
    | none => realTail negative significand offset (c :: cs)

def fractionPart (negative : Bool) (significand : Nat) (offset : Int) : Reader Float
  | [] => .error .truncated
  | c :: cs =>
    if (Decimal.digit? c).isSome then fractionDigits negative significand offset (c :: cs)
    else .error .malformed

/-- The integer digits after the significand left 64 bits; each raises the offset by one. -/
def longInteger (negative : Bool) (significand : Nat) (offset : Int) : Reader Float
  | [] => realTail negative significand offset []
  | '.' :: cs => fractionPart negative significand offset cs
  | c :: cs =>
    if (Decimal.digit? c).isSome then longInteger negative significand (offset + 1) cs
    else realTail negative significand offset (c :: cs)

def integerTail (negative : Bool) (significand : Nat) : Reader Number
  | '.' :: cs => do
    let (value, cs) ← fractionPart negative significand 0 cs
    return (.real value, cs)
  | 'e' :: cs | 'E' :: cs => do
    let (value, cs) ← exponentPart negative significand 0 cs
    return (.real value, cs)
  | cs => .ok (Number.ofDigits negative significand, cs)

def integerDigits (negative : Bool) (significand : Nat) : Reader Number
  | [] => integerTail negative significand []
  | c :: cs =>
    match Decimal.digit? c with
    | some digit =>
      if significand * 10 + digit < UInt64.size then
        integerDigits negative (significand * 10 + digit) cs
      else do
        let (value, cs) ← longInteger negative significand 0 (c :: cs)
        return (.real value, cs)
    | none => integerTail negative significand (c :: cs)

/-- The digits of a number after its sign. A leading zero stands alone. -/
def unsignedNumber (negative : Bool) : Reader Number
  | [] => .error .truncated
  | '0' :: cs =>
    match cs with
    | c :: _ =>
      if (Decimal.digit? c).isSome then .error .malformed else integerTail negative 0 cs
    | [] => integerTail negative 0 []
  | c :: cs =>
    match Decimal.digit? c with
    | some digit => integerDigits negative digit cs
    | none => .error .malformed

def number : Reader Number
  | '-' :: cs => unsignedNumber true cs
  | cs => unsignedNumber false cs

/-! ## Text values -/

def hexDigit? (c : Char) : Option Nat :=
  if '0' ≤ c ∧ c ≤ '9' then some (c.toNat - '0'.toNat)
  else if 'a' ≤ c ∧ c ≤ 'f' then some (c.toNat - 'a'.toNat + 10)
  else if 'A' ≤ c ∧ c ≤ 'F' then some (c.toNat - 'A'.toNat + 10)
  else none

/--
Four hexadecimal digits. A document with fewer than four bytes left is truncated, whatever the
bytes are.
-/
def hexUnit : Reader Nat := fun cs ↦
  match cs.take 4 |>.mapM hexDigit? with
  | some [a, b, c, d] => .ok (((a * 16 + b) * 16 + c) * 16 + d, cs.drop 4)
  | _ =>
    if (cs.take 4).foldl (fun size c ↦ size + c.utf8Size) 0 < 4 then .error .truncated
    else .error .malformed

/--
The character of a `\u` escape, after its letter. A code point above the basic plane takes two
escapes, a leading and a trailing surrogate; a surrogate alone is malformed.
-/
def unicodeEscape : Reader Char := fun cs ↦ do
  let (first, cs) ← hexUnit cs
  if 0xDC00 ≤ first ∧ first ≤ 0xDFFF then .error .malformed
  else if first < 0xD800 ∨ 0xDBFF < first then return (Char.ofNat first, cs)
  else
    let cs ← literal ['\\', 'u'] cs
    let (second, cs) ← hexUnit cs
    if 0xDC00 ≤ second ∧ second ≤ 0xDFFF then
      return (Char.ofNat ((first - 0xD800) * 0x400 + (second - 0xDC00) + 0x10000), cs)
    else .error .malformed

def escaped : Reader Char
  | [] => .error .truncated
  | '"' :: cs => .ok ('"', cs)
  | '\\' :: cs => .ok ('\\', cs)
  | '/' :: cs => .ok ('/', cs)
  | 'b' :: cs => .ok ('\x08', cs)
  | 'f' :: cs => .ok ('\x0c', cs)
  | 'n' :: cs => .ok ('\n', cs)
  | 'r' :: cs => .ok ('\r', cs)
  | 't' :: cs => .ok ('\t', cs)
  | 'u' :: cs => unicodeEscape cs
  | _ :: _ => .error .malformed

/-- One character of a text value, or `none` at its closing quotation mark. -/
def textUnit : Reader (Option Char)
  | [] => .error .truncated
  | '"' :: cs => .ok (none, cs)
  | '\\' :: cs => do
    let (c, cs) ← escaped cs
    return (some c, cs)
  | c :: cs => if c.toNat < 0x20 then .error .malformed else .ok (some c, cs)

/-- The characters of a text value up to its closing quotation mark, at most `fuel` of them. -/
def textUnits (fuel : Nat) : Reader (List Char) := fun cs ↦
  match fuel with
  | 0 => .error .truncated
  | fuel + 1 => do
    let (unit, cs) ← textUnit cs
    match unit with
    | none => return ([], cs)
    | some c =>
      let (units, cs) ← textUnits fuel cs
      return (c :: units, cs)

def textBody : Reader String := fun cs ↦ do
  let (units, cs) ← textUnits (cs.length + 1) cs
  return (String.ofList units, cs)

end Read

end WeakComponents.Json
