import ContainerLaunch.Json.Decimal
/-!
# JSON values

A JSON value as it was written: an object keeps its fields in the order of the
text, repeated keys included.  A literal that is well formed but denotes no
value, such as a string with half of a surrogate pair or a number beyond the
range of a double, is `unreadable`; it may stand where nobody looks at it.

`Json.settled` is the reading of a value whose shape is not known beforehand:
the last of repeated keys counts, keys come in order, and the nesting is
bounded.
-/

namespace ContainerLaunch

inductive Json.Number where
  | int (n : Int)
  /-- Any other number: a sign and the decimal for a double. -/
  | real (negative : Bool) (size : Json.Decimal)
  deriving DecidableEq, Repr, Inhabited

/-- A JSON value as written. -/
inductive Json where
  | null
  | bool (b : Bool)
  | number (n : Json.Number)
  | string (s : String)
  | array (items : List Json)
  | object (fields : List (String × Json))
  | unreadable
  deriving BEq, Repr, Inhabited

namespace Json

def int (n : Int) : Json := .number (.int n)

/-- The natural number `n` as a value. -/
def nat (n : Nat) : Json := .number (.int n)

/-- The value of the first field with a key. -/
def field? (key : String) : Json → Option Json
  | .object fields => (fields.find? fun f => f.1 == key).map Prod.snd
  | _ => none

/-- A field list with a field put at the place of its key. -/
def insertField (key : String) (value : Json) : List (String × Json) → List (String × Json)
  | [] => [(key, value)]
  | (k, v) :: rest =>
    if key < k then (key, value) :: (k, v) :: rest
    else if k < key then (k, v) :: insertField key value rest
    else (key, value) :: rest

mutual

/-- How many containers are nested in each other. -/
def depth : Json → Nat
  | .array items => depthOfItems items + 1
  | .object fields => depthOfFields fields + 1
  | _ => 0

/-- The greatest depth among the items of an array. -/
def depthOfItems : List Json → Nat
  | [] => 0
  | item :: rest => max item.depth (depthOfItems rest)

/-- The greatest depth among the fields of an object. -/
def depthOfFields : List (String × Json) → Nat
  | [] => 0
  | (_, value) :: rest => max value.depth (depthOfFields rest)

end

mutual

/-- A value with the fields of its objects in order and without repeated keys;
none if something in it is unreadable. -/
def normal? : Json → Option Json
  | .unreadable => none
  | .array items => (normalItems? items).map .array
  | .object fields => (normalFields? [] fields).map .object
  | value => some value

/-- The items of an array, each put in order. -/
def normalItems? : List Json → Option (List Json)
  | [] => some []
  | item :: rest => do
    let first ← item.normal?
    let more ← normalItems? rest
    some (first :: more)

def normalFields? (read : List (String × Json)) :
    List (String × Json) → Option (List (String × Json))
  | [] => some read
  | (key, value) :: rest => do
    let value ← value.normal?
    normalFields? (insertField key value read) rest

end

/-- The reading of a value of unknown shape, in which at most `room` containers
may be nested. -/
def settled (room : Nat) (j : Json) : Option Json :=
  if j.depth ≤ room then j.normal? else none

end Json
end ContainerLaunch
