import WeakComponents.Json.Lexeme

/-!
# Skipping a JSON value

The value of a member nobody asked for only has to be well formed. Skipping it checks neither the
range of its numbers nor the pairing of its surrogates nor how deeply it nests; in return every
problem inside a number is malformed text, also where the text ends.
-/

namespace WeakComponents.Json.Read

def isDigit (c : Char) : Bool :=
  (Decimal.digit? c).isSome

def skipDigits : List Char → Except Problem (List Char)
  | [] => .error .malformed
  | c :: cs => if isDigit c then .ok (cs.dropWhile isDigit) else .error .malformed

def skipExponent : List Char → Except Problem (List Char)
  | 'e' :: cs | 'E' :: cs =>
    match cs with
    | '+' :: cs | '-' :: cs => skipDigits cs
    | cs => skipDigits cs
  | cs => .ok cs

def skipFraction : List Char → Except Problem (List Char)
  | '.' :: cs => do skipExponent (← skipDigits cs)
  | cs => skipExponent cs

def skipUnsigned : List Char → Except Problem (List Char)
  | '0' :: cs =>
    match cs with
    | c :: _ => if isDigit c then .error .malformed else skipFraction cs
    | [] => .ok []
  | cs => do skipFraction (← skipDigits cs)

/-- Skips one character of a text value; the flag says whether it was the closing mark. -/
def skipUnit : Reader Bool
  | [] => .error .truncated
  | '"' :: cs => .ok (true, cs)
  | '\\' :: 'u' :: cs => do
    let (_, cs) ← hexUnit cs
    return (false, cs)
  | '\\' :: cs => do
    let (_, cs) ← escaped cs
    return (false, cs)
  | c :: cs => if c.toNat < 0x20 then .error .malformed else .ok (false, cs)

def skipText (fuel : Nat) (cs : List Char) : Except Problem (List Char) :=
  match fuel with
  | 0 => .error .truncated
  | fuel + 1 => do
    let (closed, cs) ← skipUnit cs
    if closed then return cs else skipText fuel cs

/-- What an open bracket encloses. -/
inductive Frame where
  | list
  | object
deriving DecidableEq

def Frame.closing : Frame → Char
  | list => ']'
  | object => '\x7d'

mutual

/-- Skips a value inside the open frames `stack`, innermost first, and whatever closes them. -/
def skipValue (fuel : Nat) (stack : List Frame) (cs : List Char) : Except Problem (List Char) :=
  match fuel with
  | 0 => .error .truncated
  | fuel + 1 =>
    match skipBlanks cs with
    | [] => .error .truncated
    | 'n' :: cs => do skipNext fuel stack (← literal ['u', 'l', 'l'] cs)
    | 't' :: cs => do skipNext fuel stack (← literal ['r', 'u', 'e'] cs)
    | 'f' :: cs => do skipNext fuel stack (← literal ['a', 'l', 's', 'e'] cs)
    | '"' :: cs => do skipNext fuel stack (← skipText (cs.length + 1) cs)
    | '-' :: cs => do skipNext fuel stack (← skipUnsigned cs)
    | '[' :: cs => skipOpen fuel .list stack cs
    | '\x7b' :: cs => skipOpen fuel .object stack cs
    | c :: cs =>
      if isDigit c then do skipNext fuel stack (← skipUnsigned (c :: cs))
      else .error .malformed

def skipOpen (fuel : Nat) (frame : Frame) (stack : List Frame) (cs : List Char) :
    Except Problem (List Char) :=
  match fuel with
  | 0 => .error .truncated
  | fuel + 1 =>
    match skipBlanks cs with
    | [] => .error .truncated
    | c :: cs =>
      if c = frame.closing then skipNext fuel stack cs
      else skipEntry fuel frame stack (c :: cs)

/-- Skips an entry of the innermost frame: a value, in an object after its name and colon. -/
def skipEntry (fuel : Nat) (frame : Frame) (stack : List Frame) (cs : List Char) :
    Except Problem (List Char) :=
  match fuel with
  | 0 => .error .truncated
  | fuel + 1 =>
    match frame with
    | .list => skipValue fuel (frame :: stack) cs
    | .object =>
      match skipBlanks cs with
      | [] => .error .truncated
      | '"' :: cs => do
        match skipBlanks (← skipText (cs.length + 1) cs) with
        | [] => .error .truncated
        | ':' :: cs => skipValue fuel (frame :: stack) cs
        | _ :: _ => .error .malformed
      | _ :: _ => .error .malformed

def skipNext (fuel : Nat) (stack : List Frame) (cs : List Char) : Except Problem (List Char) :=
  match fuel with
  | 0 => .error .truncated
  | fuel + 1 =>
    match stack with
    | [] => .ok cs
    | frame :: outer =>
      match skipBlanks cs with
      | [] => .error .truncated
      | ',' :: cs => skipEntry fuel frame outer cs
      | c :: cs => if c = frame.closing then skipNext fuel outer cs else .error .malformed

end

/-- Skips one value. Each of its characters takes at most three steps. -/
def skip (cs : List Char) : Except Problem (List Char) :=
  skipValue (3 * cs.length + 3) [] cs

end WeakComponents.Json.Read
