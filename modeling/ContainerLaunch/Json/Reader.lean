import ContainerLaunch.Json.Basic
/-!
# Reading JSON

The grammar of JSON texts as functions from characters to a value and the
characters left over.  The nesting is followed under a budget that the length
of the text bounds, so reading is total; no text runs out of it.
-/

namespace ContainerLaunch.Json

/-- White space between the tokens of a text. -/
def isSpace (c : Char) : Bool :=
  c == ' ' || c == '\t' || c == '\n' || c == '\r'

def skipSpace (cs : List Char) : List Char :=
  cs.dropWhile isSpace

def hexValue (c : Char) : Option Nat :=
  if '0' ≤ c ∧ c ≤ '9' then some (c.toNat - '0'.toNat)
  else if 'a' ≤ c ∧ c ≤ 'f' then some (c.toNat - 'a'.toNat + 10)
  else if 'A' ≤ c ∧ c ≤ 'F' then some (c.toNat - 'A'.toNat + 10)
  else none

def hexUnit (a b c d : Char) : Option Nat := do
  let a ← hexValue a
  let b ← hexValue b
  let c ← hexValue c
  let d ← hexValue d
  some (((a * 16 + b) * 16 + c) * 16 + d)

/-- The character that a backslash and a letter stand for. -/
def escaped (c : Char) : Option Char :=
  match c with
  | '"' => some '"'
  | '\\' => some '\\'
  | '/' => some '/'
  | 'b' => some '\x08'
  | 'f' => some '\x0c'
  | 'n' => some '\n'
  | 'r' => some '\r'
  | 't' => some '\t'
  | _ => none

/-- The code units of a string up to its closing quote, after those already
read (last first), and what follows the quote. -/
def stringUnits (read : List Nat) : List Char → Option (List Nat × List Char)
  | [] => none
  | '"' :: rest => some (read.reverse, rest)
  | '\\' :: 'u' :: a :: b :: c :: d :: rest =>
    match hexUnit a b c d with
    | some unit => stringUnits (unit :: read) rest
    | none => none
  | '\\' :: e :: rest =>
    match escaped e with
    | some c => stringUnits (c.toNat :: read) rest
    | none => none
  | c :: rest => if c.toNat < 0x20 then none else stringUnits (c.toNat :: read) rest

/-- The characters that code units stand for: a high and a low surrogate make
one character, and neither stands alone. -/
def ofUnits (read : List Char) : List Nat → Option (List Char)
  | [] => some read.reverse
  | [u] => if 0xD800 ≤ u ∧ u < 0xE000 then none else some (Char.ofNat u :: read).reverse
  | u :: v :: rest =>
    if 0xD800 ≤ u ∧ u < 0xDC00 then
      if 0xDC00 ≤ v ∧ v < 0xE000 then
        ofUnits (Char.ofNat (0x10000 + (u - 0xD800) * 0x400 + (v - 0xDC00)) :: read) rest
      else none
    else if 0xDC00 ≤ u ∧ u < 0xE000 then none
    else ofUnits (Char.ofNat u :: read) (v :: rest)

/-- The string after an opening quote, none inside if it is unreadable. -/
def readString (cs : List Char) : Option (Option String × List Char) :=
  (stringUnits [] cs).map fun (units, rest) => ((ofUnits [] units).map String.ofList, rest)

/-- A run of digits and what follows it. -/
def digitRun (cs : List Char) : List Char × List Char :=
  cs.span Char.isDigit

/-- The value of a run of digits. -/
def digitsValue (ds : List Char) : Nat :=
  ds.foldl (fun n c => n * 10 + (c.toNat - '0'.toNat)) 0

/-- The whole part of a number: a single zero, or digits that do not start with
one. -/
def wholePart (cs : List Char) : Option (List Char × List Char) :=
  match digitRun cs with
  | ([], _) => none
  | ('0' :: _ :: _, _) => none
  | (ds, rest) => some (ds, rest)

/-- The decimals of a number, if a point follows. -/
def fractionPart (cs : List Char) : Option (List Char × List Char) :=
  match cs with
  | '.' :: rest =>
    match digitRun rest with
    | ([], _) => none
    | (ds, rest) => some (ds, rest)
  | cs => some ([], cs)

def exponentDigits (negative : Bool) (cs : List Char) : Option (Option Int × List Char) :=
  match digitRun cs with
  | ([], _) => none
  | (ds, rest) =>
    let n : Int := digitsValue ds
    some (some (if negative then -n else n), rest)

/-- The exponent of a number, if one follows. -/
def exponentPart (cs : List Char) : Option (Option Int × List Char) :=
  match cs with
  | 'e' :: '+' :: rest => exponentDigits false rest
  | 'e' :: '-' :: rest => exponentDigits true rest
  | 'e' :: rest => exponentDigits false rest
  | 'E' :: '+' :: rest => exponentDigits false rest
  | 'E' :: '-' :: rest => exponentDigits true rest
  | 'E' :: rest => exponentDigits false rest
  | cs => some (none, cs)

/-- A number with a decimal point or an exponent, or too large for an integer. -/
def realOf (negative : Bool) (digits : Nat) (exponent : Int) : Json :=
  match Decimal.rounded digits exponent with
  | some size => .number (.real negative size)
  | none => .unreadable

/-- A number without decimal point and exponent. -/
def integerOf (negative : Bool) (n : Nat) : Json :=
  if negative then
    if n = 0 ∨ -(n : Int) < Int64.minValue.toInt then realOf true n 0 else int (-n)
  else if n < UInt64.size then int n
  else realOf false n 0

def readUnsigned (negative : Bool) (cs : List Char) : Option (Json × List Char) := do
  let (whole, rest) ← wholePart cs
  let (fraction, rest) ← fractionPart rest
  let (exponent, rest) ← exponentPart rest
  if fraction.isEmpty && exponent.isNone then
    some (integerOf negative (digitsValue whole), rest)
  else
    let scale := exponent.getD 0 - (fraction.length : Int)
    some (realOf negative (digitsValue (whole ++ fraction)) scale, rest)

def readNumber (cs : List Char) : Option (Json × List Char) :=
  match cs with
  | '-' :: rest => readUnsigned true rest
  | cs => readUnsigned false cs

def stringValue : Option String → Json
  | some s => .string s
  | none => .unreadable

/-- The object of fields in the order of the text; an unreadable key makes it
unreadable. -/
def objectOf (fields : List (Option String × Json)) : Json :=
  match fields.mapM fun (key, value) => key.map fun key => (key, value) with
  | some fields => .object fields
  | none => .unreadable

mutual

def readValue : Nat → List Char → Option (Json × List Char)
  | 0, _ => none
  | fuel + 1, cs =>
    match skipSpace cs with
    | 'n' :: 'u' :: 'l' :: 'l' :: rest => some (.null, rest)
    | 't' :: 'r' :: 'u' :: 'e' :: rest => some (.bool true, rest)
    | 'f' :: 'a' :: 'l' :: 's' :: 'e' :: rest => some (.bool false, rest)
    | '"' :: rest => (readString rest).map fun (s, rest) => (stringValue s, rest)
    | '[' :: rest =>
      match skipSpace rest with
      | ']' :: rest => some (.array [], rest)
      | rest => readItems fuel [] rest
    | '\x7b' :: rest =>
      match skipSpace rest with
      | '\x7d' :: rest => some (.object [], rest)
      | rest => readFields fuel [] rest
    | cs => readNumber cs

/-- The items of an array after those already read, last first. -/
def readItems : Nat → List Json → List Char → Option (Json × List Char)
  | 0, _, _ => none
  | fuel + 1, read, cs => do
    let (item, rest) ← readValue fuel cs
    match skipSpace rest with
    | ',' :: rest => readItems fuel (item :: read) rest
    | ']' :: rest => some (.array (item :: read).reverse, rest)
    | _ => none

def readFields : Nat → List (Option String × Json) → List Char → Option (Json × List Char)
  | 0, _, _ => none
  | fuel + 1, read, cs =>
    match skipSpace cs with
    | '"' :: rest => do
      let (key, rest) ← readString rest
      match skipSpace rest with
      | ':' :: rest => do
        let (value, rest) ← readValue fuel rest
        match skipSpace rest with
        | ',' :: rest => readFields fuel ((key, value) :: read) rest
        | '\x7d' :: rest => some (objectOf ((key, value) :: read).reverse, rest)
        | _ => none
      | _ => none
    | _ => none

end

/-- The value that a list of characters writes. -/
def ofChars (cs : List Char) : Option Json := do
  let (value, rest) ← readValue (2 * cs.length + 2) cs
  if (skipSpace rest).isEmpty then some value else none

def parse (text : String) : Option Json :=
  ofChars text.toList

end ContainerLaunch.Json
