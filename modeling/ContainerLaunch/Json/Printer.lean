import ContainerLaunch.Json.Basic
/-!
# Writing JSON

The compact text of a value, and the text with one field or item to a line.
A string is written with the short escapes where there is one, with `\u00xx`
for other control characters, and with everything else as it stands.
-/

namespace ContainerLaunch.Json

def hexDigit (n : Nat) : Char :=
  (Nat.digitChar n)

/-- A character as it stands in a string. -/
def escape (c : Char) : List Char :=
  match c with
  | '"' => ['\\', '"']
  | '\\' => ['\\', '\\']
  | '\x08' => ['\\', 'b']
  | '\x0c' => ['\\', 'f']
  | '\n' => ['\\', 'n']
  | '\r' => ['\\', 'r']
  | '\t' => ['\\', 't']
  | c =>
    if c.toNat < 0x20 then ['\\', 'u', '0', '0', hexDigit (c.toNat / 16), hexDigit (c.toNat % 16)]
    else [c]

def quoted (s : String) : List Char :=
  '"' :: (s.toList.flatMap escape ++ ['"'])

def Number.chars : Number → List Char
  | .int n => (toString n).toList
  | .real negative size => (if negative then ['-'] else []) ++ size.chars

mutual

def chars : Json → List Char
  | .null => ['n', 'u', 'l', 'l']
  | .bool true => ['t', 'r', 'u', 'e']
  | .bool false => ['f', 'a', 'l', 's', 'e']
  | .number n => n.chars
  | .string s => quoted s
  | .array [] => ['[', ']']
  | .array (item :: rest) => '[' :: (item.chars ++ itemChars rest)
  | .object [] => ['\x7b', '\x7d']
  | .object ((key, value) :: rest) =>
    '\x7b' :: (quoted key ++ ':' :: (value.chars ++ fieldChars rest))
  | .unreadable => ['n', 'u', 'l', 'l']

/-- The items after the first, and the closing bracket. -/
def itemChars : List Json → List Char
  | [] => [']']
  | item :: rest => ',' :: (item.chars ++ itemChars rest)

/-- The fields after the first, and the closing brace. -/
def fieldChars : List (String × Json) → List Char
  | [] => ['\x7d']
  | (key, value) :: rest => ',' :: (quoted key ++ ':' :: (value.chars ++ fieldChars rest))

end

def compact (j : Json) : String :=
  String.ofList j.chars

/-- A new line indented by `level` steps of two blanks. -/
def newLine (level : Nat) : List Char :=
  '\n' :: List.replicate (2 * level) ' '

mutual

/-- The text of a value that starts at an indentation level, with a line for
each item and field. -/
def lineChars (level : Nat) : Json → List Char
  | .array (item :: rest) =>
    '[' :: (newLine (level + 1) ++ item.lineChars (level + 1) ++ itemLines level rest)
  | .object ((key, value) :: rest) =>
    '\x7b' :: (newLine (level + 1) ++ quoted key ++ ':' :: ' ' ::
      (value.lineChars (level + 1) ++ fieldLines level rest))
  | j => j.chars

/-- The items after the first, each on its line, and the closing bracket. -/
def itemLines (level : Nat) : List Json → List Char
  | [] => newLine level ++ [']']
  | item :: rest =>
    ',' :: (newLine (level + 1) ++ item.lineChars (level + 1) ++ itemLines level rest)

/-- The fields after the first, each on its line, and the closing brace. -/
def fieldLines (level : Nat) : List (String × Json) → List Char
  | [] => newLine level ++ ['\x7d']
  | (key, value) :: rest =>
    ',' :: (newLine (level + 1) ++ quoted key ++ ':' :: ' ' ::
      (value.lineChars (level + 1) ++ fieldLines level rest))

end

def pretty (j : Json) : String :=
  String.ofList (j.lineChars 0)

end ContainerLaunch.Json
