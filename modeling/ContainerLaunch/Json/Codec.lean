import ContainerLaunch.Json.Basic
import ContainerLaunch.Path
import ContainerLaunch.SortedMap
/-!
# Values as JSON

A codec says how the values of a type are written as JSON and which JSON is
read as one.  A schema does the same for a record: it lists the fields once, in
the order in which they are written, and both directions follow the list.

A record is read from an object, whose unknown keys do not count and whose known
keys occur at most once, or from an array of its fields in order.
-/

namespace ContainerLaunch.Json

/-- How values of a type are written as JSON, and read. -/
structure Codec (α : Type) where
  write : α → Json
  read : Json → Option α

namespace Codec

def Faithful {α : Type} (c : Codec α) : Prop :=
  ∀ a, c.read (c.write a) = some a

def flag : Codec Bool where
  write := .bool
  read
    | .bool b => some b
    | _ => none

def text : Codec String where
  write := .string
  read
    | .string s => some s
    | _ => none

def path : Codec Path where
  write p := .string p.text
  read
    | .string s => some ⟨s⟩
    | _ => none

def u32 : Codec UInt32 where
  write n := .nat n.toNat
  read
    | .number (.int n) => if 0 ≤ n ∧ n < UInt32.size then some (UInt32.ofNat n.toNat) else none
    | _ => none

def i32 : Codec Int32 where
  write n := .int n.toInt
  read
    | .number (.int n) =>
      if Int32.minValue.toInt ≤ n ∧ n ≤ Int32.maxValue.toInt then some (Int32.ofInt n) else none
    | _ => none

def u64 : Codec UInt64 where
  write n := .nat n.toNat
  read
    | .number (.int n) => if 0 ≤ n ∧ n < UInt64.size then some (UInt64.ofNat n.toNat) else none
    | _ => none

def list {α : Type} (item : Codec α) : Codec (List α) where
  write xs := .array (xs.map item.write)
  read
    | .array items => items.mapM item.read
    | _ => none

/-- A value that may be missing, written `null`. -/
def nullable {α : Type} (c : Codec α) : Codec (Option α) where
  write
    | some a => c.write a
    | none => .null
  read
    | .null => some none
    | j => (c.read j).map some

def pair {α β : Type} (first : Codec α) (second : Codec β) : Codec (α × β) where
  write p := .array [first.write p.1, second.write p.2]
  read
    | .array [a, b] => do
      let a ← first.read a
      let b ← second.read b
      some (a, b)
    | _ => none

/-- A choice among named alternatives, where `further` gives more spellings.
The alternative may also stand as the only key of an object, with `null`. -/
def choice {α : Type} (name : α → String) (all : List α) (further : List (String × α)) :
    Codec α where
  write a := .string (name a)
  read j :=
    let find (s : String) : Option α :=
      match all.find? fun a => name a == s with
      | some a => some a
      | none => (further.find? fun f => f.1 == s).map Prod.snd
    match j with
    | .string s => find s
    | .object [(s, .null)] => find s
    | _ => none

/-- A map from texts, read with the last of repeated keys. -/
def dictionary {α : Type} (value : Codec α) : Codec (SortedMap String α) where
  write m := .object (m.entries.map fun e => (e.1, value.write e.2))
  read
    | .object fields => do
      let entries ← fields.mapM fun f => (value.read f.2).map fun v => (f.1, v)
      some (SortedMap.ofList entries)
    | _ => none

/-- A value of unknown shape, in which at most `room` containers are nested. -/
def anything (room : Nat) : Codec Json where
  write j := j
  read j := j.settled room

theorem flag_faithful : flag.Faithful := fun _ => rfl

theorem text_faithful : text.Faithful := fun _ => rfl

theorem path_faithful : path.Faithful := fun _ => rfl

theorem u32_faithful : u32.Faithful := by
  intro n
  have h : n.toNat < UInt32.size := n.toNat_lt
  simp only [u32, Json.nat]
  rw [if_pos (by omega)]
  simp

theorem u64_faithful : u64.Faithful := by
  intro n
  have h : n.toNat < UInt64.size := n.toNat_lt
  simp only [u64, Json.nat]
  rw [if_pos (by omega)]
  simp

theorem i32_faithful : i32.Faithful := by
  intro n
  have h₁ := n.minValue_le_toInt
  have h₂ := n.toInt_le
  simp only [i32, Json.int]
  rw [if_pos ⟨h₁, h₂⟩]
  simp

theorem list_faithful {α : Type} {item : Codec α} (h : item.Faithful) :
    (list item).Faithful := by
  intro xs
  simp only [list]
  induction xs with
  | nil => rfl
  | cons x rest ih =>
    simp only [List.map_cons, List.mapM_cons, h x, Option.pure_def, Option.bind_eq_bind,
      Option.bind_some]
    rw [ih]
    rfl

theorem pair_faithful {α β : Type} {first : Codec α} {second : Codec β} (h₁ : first.Faithful)
    (h₂ : second.Faithful) : (pair first second).Faithful := by
  intro p
  simp [pair, h₁ p.1, h₂ p.2]

end Codec

/-- One field of a record that is written as JSON and read from values of type
`ν`: its key, how it is written (a field may be left out), and how it is read
into the record. -/
structure FieldOf (ν σ : Type) where
  key : String
  /-- What is written for it, if anything. -/
  write : σ → Option Json
  read : ν → σ → Option σ
  required : Bool

namespace FieldOf

variable {σ α : Type}

/-- A field that is always written and need not be given. -/
def plain (key : String) (c : Codec α) (get : σ → α) (put : α → σ → σ) :
    FieldOf Json σ where
  key := key
  write s := some (c.write (get s))
  read j s := (c.read j).map fun a => put a s
  required := false

/-- A field that is always written and must be given. -/
def needed (key : String) (c : Codec α) (get : σ → α) (put : α → σ → σ) :
    FieldOf Json σ :=
  { plain key c get put with required := true }

/-- A field that is left out when it has no value. -/
def optional (key : String) (c : Codec α) (get : σ → Option α) (put : Option α → σ → σ) :
    FieldOf Json σ where
  key := key
  write s := (get s).map c.write
  read j s := (c.nullable.read j).map fun a => put a s
  required := false

end FieldOf

/-- A record type as its fields in the order in which they are written, and the
record that reading starts from. -/
structure SchemaOf (ν σ : Type) where
  fields : List (FieldOf ν σ)
  initial : σ

/-- A record type that is read from JSON. -/
abbrev Schema (σ : Type) := SchemaOf Json σ

namespace SchemaOf

variable {ν σ : Type}

def write (s : SchemaOf ν σ) (x : σ) : Json :=
  .object (s.fields.filterMap fun f => (f.write x).map fun j => (f.key, j))

def find (s : SchemaOf ν σ) (key : String) : Option (FieldOf ν σ) :=
  s.fields.find? fun f => f.key == key

/-- The record after the entries of an object; `seen` holds the keys read
before. -/
def readEntries (s : SchemaOf ν σ) (seen : List String) (x : σ) :
    List (String × ν) → Option (σ × List String)
  | [] => some (x, seen)
  | (key, value) :: rest =>
    match s.find key with
    | none => s.readEntries seen x rest
    | some field =>
      if seen.contains key then none
      else
        match field.read value x with
        | some x => s.readEntries (key :: seen) x rest
        | none => none

/-- The record that the entries of an object describe, if no needed field is
missing. -/
def readObject (s : SchemaOf ν σ) (entries : List (String × ν)) : Option σ := do
  let (x, seen) ← s.readEntries [] s.initial entries
  if s.fields.all fun f => !f.required || seen.contains f.key then some x else none

/-- The record after the items of an array, which stand for the fields in
order. -/
def readItems (x : σ) : List (FieldOf ν σ) → List ν → Option σ
  | fields, [] => if fields.any FieldOf.required then none else some x
  | [], _ :: _ => none
  | field :: fields, item :: items =>
    match field.read item x with
    | some x => readItems x fields items
    | none => none

end SchemaOf

namespace Schema

variable {σ : Type}

def read (s : Schema σ) : Json → Option σ
  | .object entries => s.readObject entries
  | .array items => SchemaOf.readItems s.initial s.fields items
  | _ => none

def codec (s : Schema σ) : Codec σ where
  write := s.write
  read := s.read

end Schema
end ContainerLaunch.Json
