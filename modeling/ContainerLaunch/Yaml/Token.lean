import ContainerLaunch.Yaml.Block
import ContainerLaunch.Yaml.Property
/-!
# YAML tokens

Cutting a YAML text into tokens.  Indentation becomes tokens that open and close
collections.  Whether a scalar is a key is known only when a colon follows it,
so a place where a key may begin is marked by a `candidate`, which the colon
then turns into a key; the list of tokens itself only grows.

Names are settled as they are read.  An anchor gets the number of names there are
before it, an alias the number of the anchor it names, and a tag the text that
its handle stands for.
-/

namespace ContainerLaunch.Yaml

/-- A token of a YAML text. -/
inductive Token where
  | documentStart
  | documentEnd
  | sequenceStart
  | mappingStart
  | blockEnd
  | openSequence
  | closeSequence
  | openMapping
  | closeMapping
  | item
  | comma
  /-- A key follows. -/
  | key
  | value
  | scalar (plain : Bool) (text : String)
  | anchor (id : Nat)
  | alias (id : Nat)
  | tag (name : String)
  | directive
  /-- A key may begin here. -/
  | candidate (id : Nat)
  deriving DecidableEq, Repr

/-- A place where a key may begin. -/
structure Candidate where
  id : Nat
  required : Bool
  line : Nat
  column : Nat
  /-- How many characters precede it. -/
  index : Nat

/-- How far a text has been cut into tokens. -/
structure Scan where
  cursor : Cursor
  /-- The column of the innermost collection, plus one; zero outside all. -/
  indent : Nat
  /-- The columns of the collections around it, each plus one. -/
  outer : List Nat
  /-- The candidate of every bracket that is open, innermost first, and of the
  text outside brackets. -/
  candidates : List (Option Candidate)
  keyAllowed : Bool
  /-- The tokens, last first. -/
  tokens : List Token
  next : Nat
  /-- The names of anchors, each with the number it was last given. -/
  anchors : List (String × Nat)
  /-- The handles that directives name. -/
  handles : Handles
  /-- Whether a directive gives the version. -/
  versioned : Bool

namespace Scan

/-- Nothing has been read of a text. -/
def start (cs : List Char) : Scan where
  cursor := ⟨cs, 0, 0, 0⟩
  indent := 0
  outer := []
  candidates := [none]
  keyAllowed := true
  tokens := []
  next := 0
  anchors := []
  handles := []
  versioned := false

def inFlow (s : Scan) : Bool :=
  1 < s.candidates.length

def push (s : Scan) (t : Token) : Scan :=
  { s with tokens := t :: s.tokens }

def candidate? (s : Scan) : Option Candidate :=
  s.candidates.head?.join

def setCandidate (s : Scan) (c : Option Candidate) : Scan :=
  { s with candidates := c :: s.candidates.tail }

/-- The innermost candidate dropped; one that had to be a key is an error. -/
def dropCandidate (s : Scan) : Option Scan :=
  match s.candidate? with
  | some c => if c.required then none else some (s.setCandidate none)
  | none => some s

/-- The candidates that are not too far back to be keys: a key stands on one
line and within 1024 characters. -/
def dropStale (s : Scan) : Option Scan :=
  let fresh (c : Candidate) : Bool :=
    decide (s.cursor.line ≤ c.line) && decide (s.cursor.index ≤ c.index + 1024)
  let keep (c : Option Candidate) : Option (Option Candidate) :=
    match c with
    | some c => if fresh c then some (some c) else if c.required then none else some none
    | none => some none
  (s.candidates.mapM keep).map fun candidates => { s with candidates }

/-- A candidate at the cursor, if a key may begin there. -/
def markCandidate (s : Scan) : Option Scan :=
  if s.keyAllowed then do
    let s ← s.dropCandidate
    let at_ := s.cursor
    let c : Candidate :=
      ⟨s.next, !s.inFlow && s.indent == at_.column + 1, at_.line, at_.column, at_.index⟩
    some { (s.push (.candidate s.next)).setCandidate (some c) with next := s.next + 1 }
  else some s

/-- The tokens that open a collection at a column, if it lies deeper than the
innermost one. -/
def opening (s : Scan) (column : Nat) (t : Token) : List Token × Scan :=
  if !s.inFlow && s.indent < column + 1 then
    ([t], { s with indent := column + 1, outer := s.indent :: s.outer })
  else ([], s)

/-- The collections deeper than a column (plus one) closed. -/
def closeDeeper (column : Nat) : Nat → List Nat → List Token → Nat × List Nat × List Token
  | indent, [], tokens => (indent, [], tokens)
  | indent, around :: outer, tokens =>
    if column < indent then closeDeeper column around outer (.blockEnd :: tokens)
    else (indent, around :: outer, tokens)

/-- The collections that lie deeper than a column (plus one) closed, outside
brackets. -/
def unindent (s : Scan) (column : Nat) : Scan :=
  if s.inFlow then s
  else
    let (indent, outer, tokens) := closeDeeper column s.indent s.outer s.tokens
    { s with indent, outer, tokens }

def take (s : Scan) (n : Nat) : Scan :=
  { s with cursor := s.cursor.skip n }

/-- The candidate with a number turned into a key, with the tokens before it
that open its mapping.  The list is last first. -/
def resolve (id : Nat) (opened : List Token) (tokens : List Token) : List Token :=
  tokens.flatMap fun t => if t = .candidate id then .key :: opened else [t]

def marker (s : Scan) (t : Token) : Option Scan := do
  let s ← (s.unindent 0).dropCandidate
  some (({ s with keyAllowed := false }.push t).take 3)

def openBracket (s : Scan) (t : Token) : Option Scan := do
  let s ← s.markCandidate
  let s := { s with candidates := none :: s.candidates, keyAllowed := true }
  some ((s.push t).take 1)

def closeBracket (s : Scan) (t : Token) : Option Scan := do
  let s ← s.dropCandidate
  let candidates := if s.inFlow then s.candidates.tail else s.candidates
  some (({ s with candidates, keyAllowed := false }.push t).take 1)

def commaToken (s : Scan) : Option Scan := do
  let s ← s.dropCandidate
  some (({ s with keyAllowed := true }.push .comma).take 1)

def itemToken (s : Scan) : Option Scan := do
  if !s.inFlow && !s.keyAllowed then none
  else
    let (opened, s) := s.opening s.cursor.column .sequenceStart
    let s ← { s with tokens := opened ++ s.tokens }.dropCandidate
    some (({ s with keyAllowed := true }.push .item).take 1)

def keyToken (s : Scan) : Option Scan := do
  if !s.inFlow && !s.keyAllowed then none
  else
    let (opened, s) := s.opening s.cursor.column .mappingStart
    let s ← { s with tokens := opened ++ s.tokens }.dropCandidate
    some (({ s with keyAllowed := !s.inFlow }.push .key).take 1)

def valueToken (s : Scan) : Option Scan :=
  match s.candidate? with
  | some c =>
    let (opened, s) := s.opening c.column .mappingStart
    let s := { s.setCandidate none with
      tokens := resolve c.id opened s.tokens
      keyAllowed := false }
    some ((s.push .value).take 1)
  | none =>
    if !s.inFlow && !s.keyAllowed then none
    else
      let (opened, s) := s.opening s.cursor.column .mappingStart
      let s := { s with tokens := opened ++ s.tokens, keyAllowed := !s.inFlow }
      some ((s.push .value).take 1)

/-- The cursor where `rest` is left of its line. -/
def upTo (s : Scan) (rest : List Char) : Scan :=
  s.take (s.cursor.rest.length - rest.length)

/-- A directive; no handle and no version is given twice. -/
def directiveToken (s : Scan) : Option Scan := do
  let s ← (s.unindent 0).dropCandidate
  let (line, rest) ← directiveLine s.cursor.rest.tail
  let cursor ← (s.upTo rest).cursor.endLine
  let s := { s with cursor, keyAllowed := false }.push .directive
  match line with
  | .version => if s.versioned then none else some { s with versioned := true }
  | .handle name octets =>
    if s.handles.any (·.1 == name) then none
    else some { s with handles := (name, octets) :: s.handles }

/-- An anchor.  A name that was given before moves to its new place. -/
def anchorToken (s : Scan) : Option Scan := do
  let s ← s.markCandidate
  let (name, rest) ← anchorName s.cursor.rest.tail
  let id := s.anchors.length
  let anchors := (name, id) :: s.anchors.filter (·.1 != name)
  some ({ s with anchors, keyAllowed := false }.push (.anchor id) |>.upTo rest)

def aliasToken (s : Scan) : Option Scan := do
  let s ← s.markCandidate
  let (name, rest) ← anchorName s.cursor.rest.tail
  let id ← s.anchors.lookup name
  some ({ s with keyAllowed := false }.push (.alias id) |>.upTo rest)

def tagToken (s : Scan) : Option Scan := do
  let s ← s.markCandidate
  let (tag, rest) ← tagText s.inFlow s.cursor.rest
  let name ← tag.resolve s.handles
  some ({ s with keyAllowed := false }.push (.tag name) |>.upTo rest)

def blockToken (s : Scan) (literal : Bool) : Option Scan := do
  let s ← s.dropCandidate
  let (content, cursor) ← blockScalar literal s.indent (s.cursor.skip 1)
  some ({ s with cursor, keyAllowed := true }.push (.scalar false (String.ofList content)))

def quotedToken (s : Scan) (single : Bool) : Option Scan := do
  let s ← s.markCandidate
  let at_ := s.cursor.skip 1
  let (content, next) ← quotedScalar single (at_.rest.length + 1) [] at_
  some ({ s with cursor := next, keyAllowed := false }.push (.scalar false (String.ofList content)))

def plainToken (s : Scan) : Option Scan := do
  let s ← s.markCandidate
  let (content, broken, next) ←
    plainScalar s.inFlow s.indent (s.cursor.rest.length + 1) [] .none s.cursor
  some ({ s with cursor := next, keyAllowed := broken }.push (.scalar true (String.ofList content)))

/-- The scan after the blanks, comments and line breaks at the cursor; `fuel`
bounds how many there are. -/
def toToken : Nat → Scan → Scan
  | 0, s => s
  | fuel + 1, s =>
    match s.cursor.rest with
    | ' ' :: _ => toToken fuel (s.take 1)
    | '\t' :: _ => if s.inFlow || !s.keyAllowed then toToken fuel (s.take 1) else s
    | '#' :: _ => toToken fuel { s with cursor := skipComment s.cursor s.cursor.rest }
    | '\r' :: '\n' :: rest =>
      toToken fuel
        { s with cursor := s.cursor.nextLine rest 2, keyAllowed := s.keyAllowed || !s.inFlow }
    | c :: rest =>
      if isBreak c then
        toToken fuel
          { s with cursor := s.cursor.nextLine rest 1, keyAllowed := s.keyAllowed || !s.inFlow }
      else s
    | [] => s

/-- Whether a plain scalar may begin with a character, given what follows it. -/
def beginsPlain (inFlow : Bool) (c : Char) (rest : List Char) : Bool :=
  if c == '-' then !(rest.head?.any isGap)
  else if c == '?' || c == ':' then !inFlow && !atEdge rest
  else
    !(isGap c || isBreak c || [',', '[', ']', '\x7b', '\x7d', '#', '&', '*', '!', '|', '>',
      '\x27', '"', '%', '@', '\x60'].contains c)

/-- The token at the cursor, which stands before a character. -/
def fetch (s : Scan) (c : Char) (rest : List Char) : Option Scan :=
  if c == '%' && s.cursor.column == 0 then s.directiveToken
  else if s.cursor.atMarker then s.marker (if c == '-' then .documentStart else .documentEnd)
  else if c == '[' then s.openBracket .openSequence
  else if c == '\x7b' then s.openBracket .openMapping
  else if c == ']' then s.closeBracket .closeSequence
  else if c == '\x7d' then s.closeBracket .closeMapping
  else if c == ',' then s.commaToken
  else if c == '-' && atEdge rest then s.itemToken
  else if c == '?' && (s.inFlow || atEdge rest) then s.keyToken
  else if c == ':' && (s.inFlow || atEdge rest) then s.valueToken
  else if c == '*' then s.aliasToken
  else if c == '&' then s.anchorToken
  else if c == '!' then s.tagToken
  else if (c == '|' || c == '>') && !s.inFlow then s.blockToken (c == '|')
  else if c == '\x27' then s.quotedToken true
  else if c == '"' then s.quotedToken false
  else if beginsPlain s.inFlow c rest then s.plainToken
  else none

/-- The scan at the end of the text. -/
def finish (s : Scan) : Option Scan :=
  (s.unindent 0).dropCandidate

/-- The scan to the end of the text. -/
def run : Nat → Scan → Option Scan
  | 0, _ => none
  | fuel + 1, s =>
    match (toToken (s.cursor.rest.length + 1) s).dropStale with
    | none => none
    | some s =>
      let s := s.unindent (s.cursor.column + 1)
      match s.cursor.rest with
      | [] => s.finish
      | c :: rest =>
        match s.fetch c rest with
        | some s => run fuel s
        | none => none

end Scan

/-- A text without a byte order mark at its start. -/
def withoutMark : List Char → List Char
  | '\uFEFF' :: rest => rest
  | cs => cs

/-- Whether a token is a candidate that became no key. -/
def Token.isCandidate : Token → Bool
  | .candidate _ => true
  | _ => false

def tokens (text : String) : Option (List Token) :=
  let cs := withoutMark text.toList
  if cs.all isAllowed then
    ((Scan.start cs).run (cs.length + 1)).map fun s =>
      s.tokens.reverse.filter fun t => !t.isCandidate
  else none

end ContainerLaunch.Yaml
