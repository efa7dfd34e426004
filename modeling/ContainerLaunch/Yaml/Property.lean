import ContainerLaunch.Text.Utf8
import ContainerLaunch.Yaml.Cursor
/-!
# Anchors, tags and directives

What may stand before a node, the anchor it is known by and its tag, and the
directives before a document, which say what the handles of tags stand for.  A
tag is the text of a handle and of what is written after it; its octets may be
escaped one by one, and must then be those of whole characters.
-/

namespace ContainerLaunch.Yaml

/-- A character of a name. -/
def isNameChar (c : Char) : Bool :=
  c.isAlphanum || c == '_' || c == '-'

/-- The name of an anchor and what follows it. -/
def anchorName (cs : List Char) : Option (String × List Char) :=
  let (name, rest) := cs.span isNameChar
  if !name.isEmpty && (atEdge rest || ['?', ':', ',', ']', '\x7d', '%', '@', '\x60'].any
      (rest.head? == some ·)) then
    some (String.ofList name, rest)
  else none

/-! ## The octets of a tag -/

/-- Whether a character stands for itself in a tag; where nothing else ends the
tag, brackets and commas do. -/
def isTagChar (bracketed : Bool) (c : Char) : Bool :=
  isNameChar c || [';', '/', '?', ':', '@', '&', '=', '+', '$', '.', '!', '~', '*', '\x27', '(',
    ')'].contains c || (bracketed && [',', '[', ']'].contains c)

/-- How many octets follow a first octet of a character. -/
def octetsAfter (b : Nat) : Option Nat :=
  if b < 0x80 then some 0
  else if b / 0x20 = 6 then some 1
  else if b / 0x10 = 14 then some 2
  else if b / 0x08 = 30 then some 3
  else none

/-- The octets of a tag after those in `read`, last first, and what follows them.
Of the character that was begun `owed` octets are left. -/
def tagOctets (bracketed : Bool) (read : List UInt8) (owed : Nat) :
    List Char → Option (List UInt8 × List Char)
  | '%' :: a :: b :: rest => do
    let octet := (← hexDigit? a) * 16 + (← hexDigit? b)
    let owed ← if owed = 0 then octetsAfter octet
      else if octet / 0x40 = 2 then some (owed - 1)
      else none
    tagOctets bracketed (octet.toUInt8 :: read) owed rest
  | c :: rest =>
    if owed ≠ 0 || c == '%' then none
    else if isTagChar bracketed c then tagOctets bracketed (c.toNat.toUInt8 :: read) 0 rest
    else some (read.reverse, c :: rest)
  | [] => if owed = 0 then some (read.reverse, []) else none

/-- Octets up to the first that is zero, at which a tag ends. -/
def untilZero (octets : List UInt8) : List UInt8 :=
  octets.takeWhile (· != 0)

/-- The octets of a tag, of which there must be one. -/
def someOctets (bracketed : Bool) (cs : List Char) : Option (List UInt8 × List Char) := do
  let (octets, rest) ← tagOctets bracketed [] 0 cs
  if octets.isEmpty then none else some (untilZero octets, rest)

/-! ## Tags -/

/-- The handle of a tag: an exclamation mark, or a name between two. -/
def tagHandle : List Char → Option (List Char × List Char)
  | '!' :: cs =>
    let (name, rest) := cs.span isNameChar
    match rest with
    | '!' :: rest => some ('!' :: name ++ ['!'], rest)
    | rest => some ('!' :: name, rest)
  | _ => none

/-- A tag as it is written: its handle, empty if there is none, and the octets
after it. -/
structure TagText where
  handle : List Char
  suffix : List UInt8

/-- The octet of a character below 128. -/
def asciiOctet (c : Char) : UInt8 :=
  c.toNat.toUInt8

/-- A tag without brackets.  Without a second exclamation mark the name belongs to
what is written after the handle, and an exclamation mark alone is a tag. -/
def shorthandTag (cs : List Char) : Option (TagText × List Char) := do
  let (handle, rest) ← tagHandle cs
  if 1 < handle.length && handle.getLast? == some '!' then
    let (suffix, rest) ← someOctets false rest
    some (⟨handle, suffix⟩, rest)
  else
    let (octets, rest) ← tagOctets false [] 0 rest
    let suffix := handle.tail.map asciiOctet ++ untilZero octets
    if suffix.isEmpty then some (⟨[], [asciiOctet '!']⟩, rest) else some (⟨['!'], suffix⟩, rest)

/-- A tag and what follows it, which must end it. -/
def tagText (inFlow : Bool) (cs : List Char) : Option (TagText × List Char) := do
  let (tag, rest) ←
    match cs with
    | '!' :: '<' :: rest =>
      match someOctets true rest with
      | some (suffix, '>' :: rest) => some (⟨[], suffix⟩, rest)
      | _ => none
    | cs => shorthandTag cs
  if atEdge rest || (inFlow && rest.head? == some ',') then some (tag, rest) else none

/-- What the handles of tags stand for. -/
abbrev Handles := List (List Char × List UInt8)

/-- What handles stand for that no directive names. -/
def defaultHandles : Handles :=
  [(['!'], ['!'].map asciiOctet), (['!', '!'], "tag:yaml.org,2002:".toList.map asciiOctet)]

/-- The tag that is written; none if its handle stands for nothing.  Octets that
are no text make a tag without a name. -/
def TagText.resolve (t : TagText) (handles : Handles) : Option String :=
  let name (octets : List UInt8) : String := (Text.readText ⟨octets.toArray⟩).getD ""
  if t.handle.isEmpty then some (name t.suffix)
  else ((handles ++ defaultHandles).find? (·.1 == t.handle)).map fun h => name (h.2 ++ t.suffix)

/-! ## Directives -/

/-- A line before a document. -/
inductive DirectiveLine where
  /-- The version of the notation. -/
  | version
  | handle (name : List Char) (octets : List UInt8)

/-- A number of at most nine digits and what follows it. -/
def versionNumber (cs : List Char) : Option (Nat × List Char) :=
  let (digits, rest) := cs.span Char.isDigit
  if digits.isEmpty || 9 < digits.length then none
  else some (digits.foldl (fun n c => n * 10 + (c.toNat - '0'.toNat)) 0, rest)

/-- A version; only 1.1 and 1.2 are read. -/
def versionLine (cs : List Char) : Option (DirectiveLine × List Char) := do
  let (major, rest) ← versionNumber cs
  match rest with
  | '.' :: rest =>
    let (minor, rest) ← versionNumber rest
    if major = 1 ∧ (minor = 1 ∨ minor = 2) then some (.version, rest) else none
  | _ => none

/-- What a handle stands for. -/
def handleLine (cs : List Char) : Option (DirectiveLine × List Char) := do
  let (handle, rest) ← tagHandle cs
  let blanks := rest.takeWhile isGap
  if blanks.isEmpty || (handle.getLast? != some '!') then none
  else
    let (octets, rest) ← someOctets true (rest.drop blanks.length)
    if atEdge rest then some (.handle handle octets, rest) else none

/-- A directive after its first character and what follows it on its line. -/
def directiveLine (cs : List Char) : Option (DirectiveLine × List Char) :=
  let (name, rest) := cs.span isNameChar
  if atEdge rest then
    let rest := rest.dropWhile isGap
    match String.ofList name with
    | "YAML" => versionLine rest
    | "TAG" => handleLine rest
    | _ => none
  else none

end ContainerLaunch.Yaml
