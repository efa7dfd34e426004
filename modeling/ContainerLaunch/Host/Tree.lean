import ContainerLaunch.Error
import ContainerLaunch.Octets
/-!
# The tree of files

The files of the host as one flat map from places to inodes.  A place is the
list of names that leads to it from the root, without links in between.  The
root is always there.
-/

namespace ContainerLaunch

/-- A place in the tree: the names that lead to it. -/
abbrev Place := List String

namespace Place

def path (p : Place) : Path :=
  ⟨"/" ++ Text.join "/" p⟩

/-- Whether a place is another one or lies below it. -/
def isUnder (p base : Place) : Bool :=
  base.isPrefixOf p

/-- The place that a path names if there are no links: its entries from the
root. -/
def ofPath (p : Path) : Place :=
  p.components.filterMap fun c =>
    match c with
    | .entry name => some name
    | _ => none

theorem isUnder_iff {p base : Place} : p.isUnder base = true ↔ base <+: p := by
  simp [isUnder]

end Place

/-- How a program behaves when it is run. -/
structure Program where
  stderr : ByteArray
  /-- Whether it then does not end for half a minute. -/
  hangs : Bool
  /-- The signal by which it ends, if any. -/
  signal : Option Nat
  exit : Nat
  deriving DecidableEq, Inhabited

/-- What there is at a place. -/
inductive Node where
  | directory
  | file (content : ByteArray)
  | program (behaviour : Program)
  | link (target : Path)
  /-- A symbolic link that may not be read. -/
  | sealedLink
  deriving DecidableEq, Inhabited

/-- A node with its owner and mode. -/
structure Inode where
  node : Node
  uid : UInt32
  gid : UInt32
  executable : Bool
  deriving DecidableEq, Inhabited

namespace Inode

def rootDirectory : Inode := ⟨.directory, 0, 0, true⟩

def isDirectory (i : Inode) : Bool :=
  match i.node with
  | .directory => true
  | _ => false

/-- Whether it is a file, a program included. -/
def isFile (i : Inode) : Bool :=
  match i.node with
  | .file _ | .program _ => true
  | _ => false

/-- The content of a file; the content of a program does not matter. -/
def content (i : Inode) : ByteArray :=
  match i.node with
  | .file content => content
  | _ => .empty

end Inode

/-- The tree of files. -/
structure Tree where
  /-- The entries; the first one of a place counts. -/
  entries : List (Place × Inode)
  deriving DecidableEq, Inhabited

namespace Tree

def find? (t : Tree) (p : Place) : Option Inode :=
  match t.entries.find? fun e => e.1 == p with
  | some e => some e.2
  | none => if p.isEmpty then some .rootDirectory else none

/-- The tree with an inode at a place, in place of what was there. -/
def put (t : Tree) (p : Place) (i : Inode) : Tree :=
  ⟨(p, i) :: t.entries.filter fun e => e.1 != p⟩

/-- The tree without a place and what lies below it. -/
def prune (t : Tree) (p : Place) : Tree :=
  ⟨t.entries.filter fun e => !e.1.isUnder p⟩

/-- The tree without what lies below a place. -/
def hollow (t : Tree) (p : Place) : Tree :=
  ⟨t.entries.filter fun e => e.1 == p || !e.1.isUnder p⟩

/-- The tree with every missing directory on the way to a place below `base`. -/
def makeParents (t : Tree) (base : Place) : Place → Tree
  | [] | [_] => t
  | name :: rest =>
    let here := base ++ [name]
    let t := if (t.find? here).isSome then t else t.put here .rootDirectory
    t.makeParents here rest

/-- What is put at a place is found there. -/
theorem find?_put_self (t : Tree) (p : Place) (i : Inode) : (t.put p i).find? p = some i := by
  simp [put, find?]

/-- Putting an inode somewhere changes no other place. -/
theorem find?_put_of_ne (t : Tree) {p q : Place} (i : Inode) (h : q ≠ p) :
    (t.put p i).find? q = t.find? q := by
  have hpq : (p == q) = false := by simpa using fun e => h e.symm
  have hfind : ∀ es : List (Place × Inode),
      (es.filter fun e => e.1 != p).find? (fun e => e.1 == q) = es.find? fun e => e.1 == q := by
    intro es
    induction es with
    | nil => rfl
    | cons e rest ih =>
      by_cases he : e.1 = p
      · have hne : (e.1 == q) = false := by simpa [he] using fun e => h e.symm
        simp [he, ih, hpq]
      · have hp : (e.1 != p) = true := by simpa using he
        simp only [List.filter_cons, hp, if_true, List.find?_cons, ih]
  simp only [find?, put, List.find?_cons, hpq, hfind]

/-- Pruning a place changes nothing outside it. -/
theorem find?_prune_of_not_isUnder (t : Tree) {p q : Place} (h : q.isUnder p = false) :
    (t.prune p).find? q = t.find? q := by
  have hfind : ∀ es : List (Place × Inode),
      (es.filter fun e => !e.1.isUnder p).find? (fun e => e.1 == q) =
        es.find? fun e => e.1 == q := by
    intro es
    induction es with
    | nil => rfl
    | cons e rest ih =>
      by_cases he : e.1.isUnder p = true
      · have hne : (e.1 == q) = false := by
          refine Bool.eq_false_iff.2 fun hq => ?_
          have : e.1 = q := by simpa using hq
          rw [this, h] at he
          simp at he
        simp [he, ih, hne]
      · have hp : (!e.1.isUnder p) = true := by simpa using he
        simp only [List.filter_cons, hp, if_true, List.find?_cons, ih]
  simp only [find?, prune, hfind]

end Tree
end ContainerLaunch
