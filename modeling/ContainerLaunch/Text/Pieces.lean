/-!
# Pieces of a text

The white space of Unicode and the words between it; cutting a text at a
separator and into lines, and the tests and removals at its two ends.  `pieces`
keeps empty pieces, so joining them again gives the text back; `lines` takes a
line feed as the end of a line and a carriage return before it as part of that
end.

A text is handled as its list of characters, so every function here is a
structural recursion or one of the list operators.
-/

namespace ContainerLaunch.Text

/-! ## White space -/

/-- A character with the Unicode property White_Space. -/
def isBlank (c : Char) : Bool :=
  (9 ≤ c.val && c.val ≤ 13) || c.val == 0x20 || c.val == 0x85 || c.val == 0xA0 ||
    c.val == 0x1680 || (0x2000 ≤ c.val && c.val ≤ 0x200A) || c.val == 0x2028 ||
    c.val == 0x2029 || c.val == 0x202F || c.val == 0x205F || c.val == 0x3000

/-- The characters left when trailing ones that satisfy `p` are dropped. -/
def dropTrailing (p : Char → Bool) (cs : List Char) : List Char :=
  (cs.reverse.dropWhile p).reverse

/-- A character list without white space at either end. -/
def trimmed (cs : List Char) : List Char :=
  dropTrailing isBlank (cs.dropWhile isBlank)

/-- A text without white space at either end. -/
def trim (s : String) : String :=
  String.ofList (trimmed s.toList)

/-- The maximal runs of characters outside white space; `word` holds the run
being read. -/
def wordsFrom : List Char → List Char → List (List Char)
  | word, [] => if word.isEmpty then [] else [word]
  | word, c :: rest =>
    if isBlank c then
      if word.isEmpty then wordsFrom [] rest else word :: wordsFrom [] rest
    else wordsFrom (word ++ [c]) rest

/-- The words of a text: what white space separates, empty pieces left out. -/
def words (s : String) : List String :=
  (wordsFrom [] s.toList).map String.ofList

/-- Dropping a trailing class leaves a list that does not end in that class. -/
theorem getLast?_dropTrailing (p : Char → Bool) (cs : List Char) (c : Char)
    (h : (dropTrailing p cs).getLast? = some c) : p c = false := by
  simp only [dropTrailing, List.getLast?_reverse] at h
  have := List.head?_dropWhile_not p cs.reverse
  rw [h] at this
  simpa using this

/-! ## Separators and lines -/

/-- The pieces between occurrences of a separator; there is always one. -/
def piecesOf (sep : Char) : List Char → List (List Char)
  | [] => [[]]
  | c :: rest =>
    if c = sep then [] :: piecesOf sep rest
    else
      match piecesOf sep rest with
      | [] => [[c]]
      | piece :: more => (c :: piece) :: more

/-- The pieces of a text between occurrences of a separator. -/
def pieces (sep : Char) (s : String) : List String :=
  (piecesOf sep s.toList).map String.ofList

/-- What stands before and after the first occurrence of a separator. -/
def cutAt (sep : Char) : List Char → Option (List Char × List Char)
  | [] => none
  | c :: rest =>
    if c = sep then some ([], rest)
    else (cutAt sep rest).map fun (before, after) => (c :: before, after)

/-- A text split at the first occurrence of a separator. -/
def splitOnce (sep : Char) (s : String) : Option (String × String) :=
  (cutAt sep s.toList).map fun (before, after) => (String.ofList before, String.ofList after)

/-- What follows a leading list of characters. -/
def afterPrefix : List Char → List Char → Option (List Char)
  | [], cs => some cs
  | _ :: _, [] => none
  | p :: ps, c :: cs => if p = c then afterPrefix ps cs else none

def stripStart (start s : String) : Option String :=
  (afterPrefix start.toList s.toList).map String.ofList

def stripEnd (ending s : String) : Option String :=
  (afterPrefix ending.toList.reverse s.toList.reverse).map fun cs => String.ofList cs.reverse

/-- What stands before and after the first occurrence of a list of characters. -/
def cutAtList (sep : List Char) : List Char → Option (List Char × List Char)
  | [] => if sep.isEmpty then some ([], []) else none
  | c :: rest =>
    match afterPrefix sep (c :: rest) with
    | some after => some ([], after)
    | none => (cutAtList sep rest).map fun (before, after) => (c :: before, after)

/-- A line without the carriage return that ends it. -/
def withoutReturn (line : List Char) : List Char :=
  match line.getLast? with
  | some '\r' => line.dropLast
  | _ => line

/-- The lines of a list of pieces between line feeds: each piece but the last
was ended by a line feed, and the last is a line only if it is not empty. -/
def linesOfPieces : List (List Char) → List (List Char)
  | [] => []
  | [final] => if final.isEmpty then [] else [final]
  | piece :: more => withoutReturn piece :: linesOfPieces more

def lines (s : String) : List String :=
  (linesOfPieces (piecesOf '\n' s.toList)).map String.ofList

def join (sep : String) (parts : List String) : String :=
  sep.intercalate parts

/-- Equality that ignores the case of ASCII letters. -/
def sameIgnoringCase (a b : String) : Bool :=
  a.toList.map Char.toLower == b.toList.map Char.toLower

/-- A text with its ASCII letters in upper case. -/
def upper (s : String) : String :=
  String.ofList (s.toList.map Char.toUpper)

/-- A text with its ASCII letters in lower case. -/
def lower (s : String) : String :=
  String.ofList (s.toList.map Char.toLower)

theorem piecesOf_ne_nil (sep : Char) (cs : List Char) : piecesOf sep cs ≠ [] := by
  cases cs with
  | nil => simp [piecesOf]
  | cons c rest =>
    simp only [piecesOf]
    split
    · simp
    · split <;> simp

/-- Joining the pieces with the separator gives the characters back. -/
theorem intercalate_piecesOf (sep : Char) (cs : List Char) :
    [sep].intercalate (piecesOf sep cs) = cs := by
  induction cs with
  | nil => simp [piecesOf]
  | cons c rest ih =>
    simp only [piecesOf]
    cases hp : piecesOf sep rest with
    | nil => exact absurd hp (piecesOf_ne_nil sep rest)
    | cons piece more =>
      rw [hp] at ih
      split
      · next hc =>
        subst hc
        cases more <;> simp_all [List.intercalate, List.intersperse]
      · cases more <;> simp_all [List.intercalate, List.intersperse]

/-- No piece holds the separator. -/
theorem not_mem_of_mem_piecesOf {sep : Char} {cs piece : List Char}
    (h : piece ∈ piecesOf sep cs) : sep ∉ piece := by
  induction cs generalizing piece with
  | nil => simp_all [piecesOf]
  | cons c rest ih =>
    simp only [piecesOf] at h
    split at h
    · rcases List.mem_cons.1 h with rfl | h
      · simp
      · exact ih h
    · next hc =>
      cases hp : piecesOf sep rest with
      | nil => exact absurd hp (piecesOf_ne_nil sep rest)
      | cons first more =>
        rw [hp] at h
        rcases List.mem_cons.1 h with rfl | h
        · have : sep ∉ first := ih (by simp [hp])
          simp only [List.mem_cons, not_or]
          exact ⟨fun e => hc e.symm, this⟩
        · exact ih (by simp [hp, h])

end ContainerLaunch.Text
