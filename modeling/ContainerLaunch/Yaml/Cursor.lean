/-!
# Reading YAML by characters

A cursor is what is left of a text together with the line and column at which it
starts.  The functions here take from a cursor what lies between tokens and the
content of plain and quoted scalars; line breaks inside a scalar are folded.
-/

namespace ContainerLaunch.Yaml

def isBreak (c : Char) : Bool :=
  c == '\n' || c == '\r' || c == '\u0085' || c == '\u2028' || c == '\u2029'

def isGap (c : Char) : Bool :=
  c == ' ' || c == '\t'

/-- Whether a token may end before a list of characters. -/
def atEdge : List Char → Bool
  | [] => true
  | c :: _ => isGap c || isBreak c

/-- A character that may stand in a text. -/
def isAllowed (c : Char) : Bool :=
  let n := c.toNat
  n == 0x09 || n == 0x0A || n == 0x0D || (0x20 ≤ n && n ≤ 0x7E) || n == 0x85 ||
    (0xA0 ≤ n && n ≤ 0xD7FF) || (0xE000 ≤ n && n ≤ 0xFFFD && n != 0xFEFF) ||
    (0x10000 ≤ n && n ≤ 0x10FFFF)

/-- What is left of a text, and where it starts. -/
structure Cursor where
  rest : List Char
  line : Nat
  column : Nat
  /-- How many characters were taken. -/
  index : Nat
  deriving Inhabited

namespace Cursor

/-- The cursor after `n` characters of the line. -/
def skip (c : Cursor) (n : Nat) : Cursor :=
  { c with rest := c.rest.drop n, column := c.column + n, index := c.index + n }

/-- The cursor at the start of the line after a break of `n` characters. -/
def nextLine (c : Cursor) (rest : List Char) (n : Nat) : Cursor :=
  ⟨rest, c.line + 1, 0, c.index + n⟩

/-- Whether a document marker stands at the cursor. -/
def atMarker (c : Cursor) : Bool :=
  c.column == 0 &&
    match c.rest with
    | '-' :: '-' :: '-' :: rest => atEdge rest
    | '.' :: '.' :: '.' :: rest => atEdge rest
    | _ => false

end Cursor

/-- What a line break becomes in a scalar. -/
def foldedBreak (c : Char) : Char :=
  if c == '\u2028' || c == '\u2029' then c else '\n'

/-- The blanks and line breaks between two words of a scalar. -/
structure Gap where
  broken : Bool
  blanks : List Char
  /-- The first break, if it was not written with a backslash. -/
  first : List Char
  /-- The breaks after the first. -/
  more : List Char

namespace Gap

def none : Gap := ⟨false, [], [], []⟩

/-- A gap that begins with a line break written with a backslash. -/
def joined : Gap := ⟨true, [], [], []⟩

/-- What a gap becomes in a scalar: a single line break becomes a blank, and the
first of several is dropped. -/
def text (g : Gap) : List Char :=
  if g.broken then
    if g.first == ['\n'] then (if g.more.isEmpty then [' '] else g.more) else g.first ++ g.more
  else g.blanks

def blank (g : Gap) (c : Char) : Gap :=
  if g.broken then g else { g with blanks := g.blanks ++ [c] }

/-- A gap with one more line break. -/
def lineBreak (g : Gap) (c : Char) : Gap :=
  if g.broken then { g with more := g.more ++ [c] }
  else { g with broken := true, blanks := [], first := [c] }

end Gap

/-- The gap at a cursor and what follows it.  In a scalar that must be indented
by `limit`, no tab may stand for the indentation. -/
def takeGap (limit : Option Nat) (g : Gap) (at_ : Cursor) : List Char → Option (Gap × Cursor)
  | '\r' :: '\n' :: rest => takeGap limit (g.lineBreak '\n') (at_.nextLine rest 2) rest
  | c :: rest =>
    if isBreak c then takeGap limit (g.lineBreak (foldedBreak c)) (at_.nextLine rest 1) rest
    else if isGap c then
      let tooFarLeft := match limit with
        | some n => decide (at_.column < n)
        | none => false
      if g.broken && c == '\t' && tooFarLeft then none
      else takeGap limit (g.blank c) (at_.skip 1) rest
    else some (g, at_)
  | [] => some (g, at_)

/-- The word of a plain scalar at a cursor, before which `read` was read (last
first).  Inside brackets their characters end a word, and a colon before one of
them is an error. -/
def plainWord (inFlow : Bool) (read : List Char) (at_ : Cursor) :
    List Char → Option (List Char × Cursor)
  | [] => some (read, at_)
  | c :: rest =>
    if isGap c || isBreak c then some (read, at_)
    else if inFlow && c == ':' && [',', '?', '[', ']', '\x7b', '\x7d'].any (rest.head? == some ·) then
      none
    else if (c == ':' && atEdge rest) || (inFlow && [',', '[', ']', '\x7b', '\x7d'].contains c) then
      some (read, at_)
    else plainWord inFlow (c :: read) (at_.skip 1) rest

/-- A plain scalar after what was read of it: its content, whether a line ended
after it, and what follows.  The scalar goes on only on lines indented by
`limit`. -/
def plainScalar (inFlow : Bool) (limit : Nat) :
    Nat → List Char → Gap → Cursor → Option (List Char × Bool × Cursor)
  | 0, _, _, _ => none
  | fuel + 1, read, pending, at_ =>
    if at_.atMarker || at_.rest.head? == some '#' then some (read, pending.broken, at_)
    else
      match plainWord inFlow [] at_ at_.rest with
      | none => none
      | some (word, next) =>
        let read := if word.isEmpty then read else read ++ pending.text ++ word.reverse
        let broken := word.isEmpty && pending.broken
        if next.rest.isEmpty || !atEdge next.rest then some (read, broken, next)
        else
          match takeGap (some limit) .none next next.rest with
          | none => none
          | some (g, next) =>
            if !inFlow && next.column < limit then some (read, g.broken, next)
            else plainScalar inFlow limit fuel read g next

def hexDigit? (c : Char) : Option Nat :=
  if '0' ≤ c ∧ c ≤ '9' then some (c.toNat - '0'.toNat)
  else if 'a' ≤ c ∧ c ≤ 'f' then some (c.toNat - 'a'.toNat + 10)
  else if 'A' ≤ c ∧ c ≤ 'F' then some (c.toNat - 'A'.toNat + 10)
  else none

/-- The character with a number, unless the number is none of a character. -/
def charOf? (n : Nat) : Option Char :=
  if 0x10FFFF < n ∨ (0xD800 ≤ n ∧ n ≤ 0xDFFF) then none else some (Char.ofNat n)

/-- The character written by a number of hexadecimal digits. -/
def hexChar (digits : Nat) (cs : List Char) : Option Char :=
  let ds := cs.take digits
  if ds.length < digits then none
  else
    match ds.mapM hexDigit? with
    | some ns => charOf? (ns.foldl (fun n d => n * 16 + d) 0)
    | none => none

/-- The character that stands after a backslash in a double-quoted scalar, and
how many characters write it. -/
def escapedChar (cs : List Char) : Option (Char × Nat) :=
  match cs with
  | '0' :: _ => some ('\x00', 1)
  | 'a' :: _ => some ('\x07', 1)
  | 'b' :: _ => some ('\x08', 1)
  | 't' :: _ => some ('\t', 1)
  | '\t' :: _ => some ('\t', 1)
  | 'n' :: _ => some ('\n', 1)
  | 'v' :: _ => some ('\x0b', 1)
  | 'f' :: _ => some ('\x0c', 1)
  | 'r' :: _ => some ('\r', 1)
  | 'e' :: _ => some ('\x1b', 1)
  | ' ' :: _ => some (' ', 1)
  | '"' :: _ => some ('"', 1)
  | '/' :: _ => some ('/', 1)
  | '\\' :: _ => some ('\\', 1)
  | 'N' :: _ => some ('\u0085', 1)
  | '_' :: _ => some ('\u00a0', 1)
  | 'L' :: _ => some ('\u2028', 1)
  | 'P' :: _ => some ('\u2029', 1)
  | 'x' :: rest => (hexChar 2 rest).map fun c => (c, 3)
  | 'u' :: rest => (hexChar 4 rest).map fun c => (c, 5)
  | 'U' :: rest => (hexChar 8 rest).map fun c => (c, 9)
  | _ => none

/-- Where a word of a quoted scalar ends. -/
inductive WordEnd where
  | gap
  | joined
  | quote

/-- The word of a quoted scalar at a cursor, after what was read of it (last
first). -/
def quotedWord (single : Bool) : Nat → List Char → Cursor → Option (List Char × WordEnd × Cursor)
  | 0, _, _ => none
  | fuel + 1, read, at_ =>
    match at_.rest with
    | [] => some (read, .gap, at_)
    | c :: rest =>
      if isGap c || isBreak c then some (read, .gap, at_)
      else if single && c == '\x27' && rest.head? == some '\x27' then
        quotedWord single fuel ('\x27' :: read) (at_.skip 2)
      else if c == (if single then '\x27' else '"') then some (read, .quote, at_.skip 1)
      else if !single && c == '\\' then
        match rest with
        | '\r' :: '\n' :: after => some (read, .joined, at_.nextLine after 3)
        | d :: after =>
          if isBreak d then some (read, .joined, at_.nextLine after 2)
          else
            match escapedChar rest with
            | some (e, n) => quotedWord single fuel (e :: read) (at_.skip (n + 1))
            | none => none
        | [] => none
      else quotedWord single fuel (c :: read) (at_.skip 1)

/-- A quoted scalar after what was read of it, up to its closing quote. -/
def quotedScalar (single : Bool) : Nat → List Char → Cursor → Option (List Char × Cursor)
  | 0, _, _ => none
  | fuel + 1, read, at_ =>
    if at_.atMarker || at_.rest.isEmpty then none
    else
      match quotedWord single (at_.rest.length + 1) [] at_ with
      | none => none
      | some (word, .quote, next) => some (read ++ word.reverse, next)
      | some (word, ending, next) =>
        let start := match ending with
          | .joined => Gap.joined
          | _ => Gap.none
        match takeGap none start next next.rest with
        | none => none
        | some (g, next) => quotedScalar single fuel (read ++ word.reverse ++ g.text) next

def skipComment (at_ : Cursor) : List Char → Cursor
  | [] => at_
  | c :: rest => if isBreak c then at_ else skipComment (at_.skip 1) rest

/-- The line break at a cursor, if there is one, and what follows it. -/
def Cursor.takeBreak (at_ : Cursor) : List Char × Cursor :=
  match at_.rest with
  | '\r' :: '\n' :: rest => (['\n'], at_.nextLine rest 2)
  | c :: rest => if isBreak c then ([foldedBreak c], at_.nextLine rest 1) else ([], at_)
  | [] => ([], at_)

/-- The cursor after the rest of a line, on which nothing but a comment may
stand. -/
def Cursor.endLine (at_ : Cursor) : Option Cursor :=
  let at_ := at_.skip (at_.rest.takeWhile isGap).length
  let at_ := if at_.rest.head? == some '#' then skipComment at_ at_.rest else at_
  if atEdge at_.rest then some at_.takeBreak.2 else none

end ContainerLaunch.Yaml
