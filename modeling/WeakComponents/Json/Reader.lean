import WeakComponents.Json.Skip
import WeakComponents.Table

/-!
# Reading JSON documents

Typed readers meet the problems of a document in the order of its characters: a member is checked
against what is asked for as soon as it has been read, before anything behind it is looked at.
-/

namespace WeakComponents.Json

namespace Read

def colon (cs : List Char) : Except Problem (List Char) :=
  match skipBlanks cs with
  | [] => .error .truncated
  | ':' :: cs => .ok cs
  | _ :: _ => .error .malformed

/-- The name of a member that must follow. Only a text value is a name; any other is malformed. -/
def memberName : Reader String := fun cs ↦
  match skipBlanks cs with
  | [] => .error .truncated
  | '"' :: cs => textBody cs
  | _ :: _ => .error .malformed

/-- The next name in an object, or `none` at its closing bracket. -/
def nextName (first : Bool) : Reader (Option String) := fun cs ↦ do
  match skipBlanks cs with
  | [] => .error .truncated
  | '\x7d' :: cs => return (none, cs)
  | '"' :: cs =>
    if first then
      let (name, cs) ← textBody cs
      return (some name, cs)
    else .error .malformed
  | ',' :: cs =>
    if first then .error .malformed
    else
      let (name, cs) ← memberName cs
      return (some name, cs)
  | _ :: _ => .error .malformed

/-- Whether a list goes on with another item; if not, its closing bracket has been read. -/
def nextItem (first : Bool) : Reader Bool := fun cs ↦
  match skipBlanks cs with
  | [] => .error .truncated
  | ']' :: cs => .ok (false, cs)
  | c :: cs =>
    if first then .ok (true, c :: cs)
    else if c = ',' then
      match skipBlanks cs with
      | [] => .error .truncated
      | ']' :: _ => .error .malformed
      | cs => .ok (true, cs)
    else .error .malformed

def listEnd (cs : List Char) : Except Problem (List Char) :=
  match skipBlanks cs with
  | [] => .error .truncated
  | ']' :: cs => .ok cs
  | _ :: _ => .error .malformed

/--
The problem of a value that was not asked for, from its first character on. A literal, a number or
a text value is read before it is refused.
-/
def unexpected (cs : List Char) : Problem :=
  let refuse := fun {α : Type} (outcome : Except Problem α) ↦
    match outcome with
    | .error problem => problem
    | .ok _ => .mismatched
  match cs with
  | [] => .truncated
  | 'n' :: cs => refuse (literal ['u', 'l', 'l'] cs)
  | 't' :: cs => refuse (literal ['r', 'u', 'e'] cs)
  | 'f' :: cs => refuse (literal ['a', 'l', 's', 'e'] cs)
  | '"' :: cs => refuse (textBody cs)
  | '[' :: _ | '\x7b' :: _ => .mismatched
  | c :: cs => if c = '-' ∨ isDigit c then refuse (number (c :: cs)) else .malformed

/-- A natural number below `2 ^ 64`, written without fraction and exponent. -/
def natural : Reader UInt64 := fun cs ↦
  match skipBlanks cs with
  | c :: cs =>
    if c = '-' ∨ isDigit c then do
      match ← number (c :: cs) with
      | (.natural value, cs) => return (value, cs)
      | _ => .error .mismatched
    else .error (unexpected (c :: cs))
  | [] => .error .truncated

def null (cs : List Char) : Except Problem (List Char) :=
  match skipBlanks cs with
  | 'n' :: cs => literal ['u', 'l', 'l'] cs
  | cs => .error (unexpected cs)

/--
The members of a record from an object. Members with other names are skipped; a known name must
not come twice.
-/
def recordMembers (fuel : Nat) (names : List String) (found : List (String × UInt64))
    (first : Bool) : Reader (List (String × UInt64)) := fun cs ↦
  match fuel with
  | 0 => .error .truncated
  | fuel + 1 => do
    let (name, cs) ← nextName first cs
    match name with
    | none => return (found, cs)
    | some name =>
      if name ∈ names then
        if (found.lookup name).isSome then .error .mismatched
        else
          let cs ← colon cs
          let (value, cs) ← natural cs
          recordMembers fuel names (found ++ [(name, value)]) false cs
      else
        let cs ← colon cs
        let cs ← skip cs
        recordMembers fuel names found false cs

/-- The members of a record from a list, which gives them in order and may stop early. -/
def recordItems (names : List String) (found : List (String × UInt64)) (first : Bool) :
    Reader (List (String × UInt64)) := fun cs ↦
  match names with
  | [] => do return (found, ← listEnd cs)
  | name :: names => do
    let (more, cs) ← nextItem first cs
    if more then
      let (value, cs) ← natural cs
      recordItems names (found ++ [(name, value)]) false cs
    else return (found, cs)

/-- The members given for a record whose members, all naturals, have these names. -/
def record (names : List String) : Reader (List (String × UInt64)) := fun cs ↦
  match skipBlanks cs with
  | '\x7b' :: cs => recordMembers (cs.length + 1) names [] true cs
  | '[' :: cs => recordItems names [] true cs
  | cs => .error (unexpected cs)

/-- The members of an object whose values are all of one type; the last one of a name counts. -/
def mappingMembers {α : Type} (reader : Reader α) (fuel : Nat) (first : Bool) (found : Table α) :
    Reader (Table α) := fun cs ↦
  match fuel with
  | 0 => .error .truncated
  | fuel + 1 => do
    let (name, cs) ← nextName first cs
    match name with
    | none => return (found, cs)
    | some name =>
      let cs ← colon cs
      let (value, cs) ← reader cs
      mappingMembers reader fuel false (found.insert name value) cs

def mapping {α : Type} (reader : Reader α) : Reader (Table α) := fun cs ↦
  match skipBlanks cs with
  | '\x7b' :: cs => mappingMembers reader (cs.length + 1) true .empty cs
  | cs => .error (unexpected cs)

/--
The rest of an object that must give the member `name` once. Members with other names are
skipped.
-/
def onlyMember {α : Type} (name : String) (reader : Reader α) (fuel : Nat) (first : Bool)
    (found : Option α) : Reader α := fun cs ↦
  match fuel with
  | 0 => .error .truncated
  | fuel + 1 => do
    let (other, cs) ← nextName first cs
    match other with
    | none =>
      match found with
      | some value => return (value, cs)
      | none => .error .mismatched
    | some other =>
      if other = name then
        if found.isSome then .error .mismatched
        else
          let cs ← colon cs
          let (value, cs) ← reader cs
          onlyMember name reader fuel false (some value) cs
      else
        let cs ← colon cs
        let cs ← skip cs
        onlyMember name reader fuel false found cs

/-- A record of one required member, as an object or as a list of one item. -/
def only {α : Type} (name : String) (reader : Reader α) : Reader α := fun cs ↦ do
  match skipBlanks cs with
  | '\x7b' :: cs => onlyMember name reader (cs.length + 1) true none cs
  | '[' :: cs =>
    let (more, cs) ← nextItem true cs
    if more then
      let (value, cs) ← reader cs
      return (value, ← listEnd cs)
    else .error .mismatched
  | cs => .error (unexpected cs)

/--
A case without contents, from a list of named cases: its name as a text value, or an object whose
one member has that name and is null.
-/
def namedCase {α : Type} (cases : List (String × α)) : Reader α := fun cs ↦ do
  match skipBlanks cs with
  | [] => .error .truncated
  | '"' :: cs =>
    let (name, cs) ← textBody cs
    match cases.lookup name with
    | some value => return (value, cs)
    | none => .error .mismatched
  | '\x7b' :: cs =>
    let (name, cs) ← memberName cs
    match cases.lookup name with
    | none => .error .mismatched
    | some value =>
      let cs ← colon cs
      let cs ← null cs
      match skipBlanks cs with
      | [] => .error .truncated
      | '\x7d' :: cs => return (value, cs)
      | _ :: _ => .error .malformed
  | _ :: _ => .error .malformed

/-! ## Values of any type -/

/-- How deeply lists and objects may nest. -/
def nestingLimit : Nat := 127

mutual

/-- A value in which lists and objects nest at most `depth` deep. -/
def value (fuel depth : Nat) (cs : List Char) : Except Problem (Json × List Char) :=
  match fuel with
  | 0 => .error .truncated
  | fuel + 1 =>
    match skipBlanks cs with
    | [] => .error .truncated
    | 'n' :: cs => do return (.null, ← literal ['u', 'l', 'l'] cs)
    | 't' :: cs => do return (.bool true, ← literal ['r', 'u', 'e'] cs)
    | 'f' :: cs => do return (.bool false, ← literal ['a', 'l', 's', 'e'] cs)
    | '"' :: cs => do
      let (value, cs) ← textBody cs
      return (.text value, cs)
    | '[' :: cs =>
      match depth with
      | 0 => .error .malformed
      | depth + 1 => do
        let (items, cs) ← items fuel depth true cs
        return (.list items, cs)
    | '\x7b' :: cs =>
      match depth with
      | 0 => .error .malformed
      | depth + 1 => do
        let (members, cs) ← members fuel depth true .empty cs
        return (.object members.entries, cs)
    | c :: cs =>
      if c = '-' ∨ isDigit c then do
        let (value, cs) ← number (c :: cs)
        return (.number value, cs)
      else .error .malformed

def items (fuel depth : Nat) (first : Bool) (cs : List Char) :
    Except Problem (List Json × List Char) :=
  match fuel with
  | 0 => .error .truncated
  | fuel + 1 => do
    let (more, cs) ← nextItem first cs
    if more then
      let (item, cs) ← value fuel depth cs
      let (rest, cs) ← items fuel depth false cs
      return (item :: rest, cs)
    else return ([], cs)

/-- The members of an object up to its closing bracket; the last one of a name counts. -/
def members (fuel depth : Nat) (first : Bool) (found : Table Json) (cs : List Char) :
    Except Problem (Table Json × List Char) :=
  match fuel with
  | 0 => .error .truncated
  | fuel + 1 => do
    let (name, cs) ← nextName first cs
    match name with
    | none => return (found, cs)
    | some name =>
      let cs ← colon cs
      let (member, cs) ← value fuel depth cs
      members fuel depth false (found.insert name member) cs

end

def anyValue : Reader Json := fun cs ↦
  value (2 * cs.length + 2) nestingLimit cs

end Read

/-- A document holds one value and nothing else but blanks. -/
def readDocument {α : Type} (reader : Reader α) (document : String) : Except Problem α := do
  let (value, rest) ← reader document.toList
  if (Read.skipBlanks rest).isEmpty then return value else .error .malformed

def ofText (document : String) : Except Problem Json :=
  readDocument Read.anyValue document

end WeakComponents.Json
