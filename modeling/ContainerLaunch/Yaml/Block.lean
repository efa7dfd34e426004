import ContainerLaunch.Yaml.Cursor
/-!
# Block scalars

A block scalar stands on the lines below its header.  The header says what
becomes of the line breaks at the end and how far the lines are indented; where
it says nothing of the indentation, the first line that is not empty shows it.
A literal scalar keeps its line breaks, and in a folded one a single line break
between two lines becomes a blank unless one of them begins with one.
-/

namespace ContainerLaunch.Yaml

/-- What becomes of the line breaks at the end of a block scalar. -/
inductive Chomping where
  | strip
  /-- The first of them is kept. -/
  | clip
  | keep
  deriving DecidableEq, Repr

/-- The sign that says what becomes of the line breaks, if it comes next. -/
def takeChomping : List Char → Option Chomping × List Char
  | '+' :: rest => (some .keep, rest)
  | '-' :: rest => (some .strip, rest)
  | cs => (none, cs)

/-- The digit that says how much deeper the lines are, if it comes next. -/
def takeIncrement : List Char → Option Nat × List Char
  | c :: rest =>
    if '1' ≤ c ∧ c ≤ '9' then (some (c.toNat - '0'.toNat), rest) else (none, c :: rest)
  | [] => (none, [])

/-- The header of a block scalar without its first character: its sign, its digit
and what follows.  They may stand in either order. -/
def blockHeader (cs : List Char) : Chomping × Option Nat × List Char :=
  match takeChomping cs with
  | (some chomping, rest) =>
    let (increment, rest) := takeIncrement rest
    (chomping, increment, rest)
  | (none, _) =>
    let (increment, rest) := takeIncrement cs
    let (chomping, rest) := takeChomping rest
    (chomping.getD .clip, increment, rest)

/-- The line breaks up to a line that is not empty, after those in `breaks`, with
the greatest column that was reached and what follows.  The indentation is
skipped as far as `indent` says, and no tab may stand for it. -/
def blockBreaks (indent : Option Nat) (deepest : Nat) (breaks : List Char) (at_ : Cursor) :
    List Char → Option (Nat × List Char × Cursor)
  | '\r' :: '\n' :: rest =>
    blockBreaks indent deepest (breaks ++ ['\n']) (at_.nextLine rest 2) rest
  | c :: rest =>
    let outside := indent.all (at_.column < ·)
    if outside && c == ' ' then
      blockBreaks indent (max deepest (at_.column + 1)) breaks (at_.skip 1) rest
    else if outside && c == '\t' then none
    else if isBreak c then
      blockBreaks indent deepest (breaks ++ [foldedBreak c]) (at_.nextLine rest 1) rest
    else some (deepest, breaks, at_)
  | [] => some (deepest, breaks, at_)

/-- How far a block scalar has been read. -/
structure BlockText where
  /-- The lines so far, without the breaks after the last one. -/
  text : List Char
  /-- The break that ends the last line. -/
  first : List Char
  /-- The breaks after it. -/
  more : List Char
  /-- Whether the last line begins with a blank. -/
  blank : Bool

namespace BlockText

/-- What stands for the breaks before the next line. -/
def between (b : BlockText) (literal blank : Bool) : List Char :=
  if !literal && b.first == ['\n'] && !b.blank && !blank then
    if b.more.isEmpty then [' '] else b.more
  else b.first ++ b.more

/-- The scalar, when no line follows. -/
def chomped (b : BlockText) : Chomping → List Char
  | .strip => b.text
  | .clip => b.text ++ b.first
  | .keep => b.text ++ b.first ++ b.more

end BlockText

/-- The lines of a block scalar that are indented by `indent`, after what was read
of it, and what follows them. -/
def blockLines (literal : Bool) (indent : Nat) :
    Nat → BlockText → Cursor → Option (BlockText × Cursor)
  | 0, _, _ => none
  | fuel + 1, read, at_ =>
    match at_.rest with
    | [] => some (read, at_)
    | c :: _ =>
      if at_.column == indent then
        let line := at_.rest.takeWhile (!isBreak ·)
        let text := read.text ++ read.between literal (isGap c) ++ line
        let (first, next) := (at_.skip line.length).takeBreak
        match blockBreaks (some indent) 0 [] next next.rest with
        | some (_, more, next) => blockLines literal indent fuel ⟨text, first, more, isGap c⟩ next
        | none => none
      else some (read, at_)

/-- A block scalar after the first character of its header.  The columns of what
is around it lie below `around`. -/
def blockScalar (literal : Bool) (around : Nat) (at_ : Cursor) : Option (List Char × Cursor) := do
  let (chomping, increment, rest) := blockHeader at_.rest
  let start ← (at_.skip (at_.rest.length - rest.length)).endLine
  let given := increment.map fun n => around - 1 + n
  let (deepest, breaks, start) ← blockBreaks given 0 [] start start.rest
  let indent := given.getD (max deepest (max around 1))
  let (read, next) ←
    blockLines literal indent (start.rest.length + 1) ⟨[], [], breaks, false⟩ start
  some (read.chomped chomping, next)

end ContainerLaunch.Yaml
