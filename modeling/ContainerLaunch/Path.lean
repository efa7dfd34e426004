import ContainerLaunch.Text.Pieces
/-!
# Paths

A path is a text, kept as it was written.  What it means is its list of
components: repeated and trailing slashes and inner `.` components do not
count, `..` does.  Comparison and the prefix test are by components, so
`/a//b/` is the same place as `/a/b`, and `/ab` does not lie below `/a`.
-/

namespace ContainerLaunch

/-- A path as written. -/
structure Path where
  text : String
  deriving DecidableEq, Repr, Inhabited

namespace Path

/-- A part of a path. -/
inductive Component where
  | root
  /-- A `.` at the start. -/
  | here
  /-- A `..`. -/
  | up
  | entry (name : String)
  deriving DecidableEq, Repr

/-- Whether a path starts at the root. -/
def isAbsolute (p : Path) : Bool :=
  p.text.toList.head? == some '/'

/-- The component that a piece between slashes stands for, if any. -/
def componentOf (piece : String) : Option Component :=
  if piece = "" ∨ piece = "." then none
  else if piece = ".." then some .up
  else some (.entry piece)

def components (p : Path) : List Component :=
  let pieces := Text.pieces '/' p.text
  let inner := pieces.filterMap componentOf
  if p.isAbsolute then .root :: inner
  else if pieces.head? = some "." then .here :: inner
  else inner

def same (p q : Path) : Bool :=
  p.components == q.components

/-- A path lies at or below another one, component by component. -/
def isWithin (p base : Path) : Bool :=
  base.components.isPrefixOf p.components

/-- A path read from the place that another one names. -/
def join (base rel : Path) : Path :=
  if rel.isAbsolute then rel
  else
    match base.text.toList.getLast? with
    | none => rel
    | some '/' => ⟨base.text ++ rel.text⟩
    | some _ => ⟨base.text ++ "/" ++ rel.text⟩

def Component.spelling : Component → String
  | .root => ""
  | .here => "."
  | .up => ".."
  | .entry name => name

/-- The path written from components, without anything that does not count. -/
def ofComponents : List Component → Path
  | .root :: rest => ⟨"/" ++ Text.join "/" (rest.map Component.spelling)⟩
  | rest => ⟨Text.join "/" (rest.map Component.spelling)⟩

/-- The path without its last component; the root and the empty path have none. -/
def parent? (p : Path) : Option Path :=
  match p.components with
  | [] => none
  | [.root] => none
  | cs => some (ofComponents cs.dropLast)

/-- The size of a path in octets. -/
def size (p : Path) : Nat :=
  p.text.utf8ByteSize

/-- Whether the text holds a NUL character. -/
def hasNul (p : Path) : Bool :=
  p.text.toList.contains '\x00'

instance : ToString Path := ⟨Path.text⟩

/-- A path that lies within another has its components as a prefix. -/
theorem isWithin_iff (p base : Path) :
    p.isWithin base = true ↔ base.components <+: p.components := by
  simp [isWithin]

/-- Sameness is equality of components. -/
theorem same_iff (p q : Path) : p.same q = true ↔ p.components = q.components := by
  simp [same]

end Path
end ContainerLaunch
