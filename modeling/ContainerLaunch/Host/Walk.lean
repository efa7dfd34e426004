import ContainerLaunch.Host.Tree
/-!
# Walking a path

How the kernel finds the place that a path names: step by step from the root or
the current directory, through symbolic links, of which it follows at most 40.
A last step to a name that does not exist is a place too, at which a file can
be made.
-/

namespace ContainerLaunch

/-- A step of a walk. -/
inductive Step where
  | here
  | up
  | enter (name : String)
  deriving DecidableEq, Repr

namespace Step

/-- The step that a piece of a path between slashes stands for, if any. -/
def ofPiece (piece : String) : Option Step :=
  if piece = "" then none
  else if piece = "." then some .here
  else if piece = ".." then some .up
  else some (.enter piece)

/-- The steps of a path; a trailing slash asks for a directory. -/
def ofPath (p : Path) : List Step :=
  let steps := (Text.pieces '/' p.text).filterMap ofPiece
  if p.text.toList.getLast? == some '/' then steps ++ [.here] else steps

end Step

/-- What the kernel finds at each place. -/
abbrev Lookup := Place → Option Inode

namespace Walk

def maxName : Nat := 255

/-- How many links a walk may follow. -/
def maxLinks : Nat := 40

/-- Where the walk over the steps of a path starts: the root, or the current
directory. -/
def start (cwd : Option Place) (p : Path) : Except Errno Place :=
  if p.isAbsolute then .ok []
  else
    match cwd with
    | some here => .ok here
    | none => .error .noEntry

/-- Whether there is a directory at a place. -/
def isDirectoryAt (look : Lookup) (p : Place) : Bool :=
  ((look p).map Inode.isDirectory).getD false

/-- The walk over the steps of a path from a place, where `onLink` says how it
goes on through a link.  A directory that is gone has no entries any more, but
still leads up. -/
def along (look : Lookup) (onLink : Place → List Step → Except Errno Place) (follow : Bool) :
    Place → List Step → Except Errno Place
  | here, [] => .ok here
  | here, .here :: rest => along look onLink follow here rest
  | here, .up :: rest => along look onLink follow here.dropLast rest
  | here, .enter name :: rest =>
    if !isDirectoryAt look here then .error .noEntry
    else if maxName < name.utf8ByteSize then .error .nameTooLong
    else
      let there := here ++ [name]
      match (look there).map Inode.node with
      | none => if rest.isEmpty then .ok there else .error .noEntry
      | some (.link target) =>
        if rest.isEmpty && !follow then .ok there
        else onLink (if target.isAbsolute then [] else here) (Step.ofPath target ++ rest)
      | some .sealedLink =>
        if rest.isEmpty && !follow then .ok there else .error .accessDenied
      | some .directory => along look onLink follow there rest
      | some _ => if rest.isEmpty then .ok there else .error .notDirectory

/-- The walk over steps from a place, where `links` more links may be followed. -/
def go (look : Lookup) (follow : Bool) : Nat → Place → List Step → Except Errno Place
  | 0 => along look (fun _ _ => .error .linkLoop) follow
  | links + 1 => along look (go look follow links) follow

/-- The place that a path names; `follow` says whether a link at its end is
followed. -/
def resolve (look : Lookup) (cwd : Option Place) (follow : Bool) (p : Path) :
    Except IoError Place :=
  if p.hasNul then .error .nulInName
  else if p.text.isEmpty then .error (.system .noEntry)
  else if 4096 ≤ p.size then .error (.system .nameTooLong)
  else
    match start cwd p >>= fun here => go look follow maxLinks here (Step.ofPath p) with
    | .ok place => .ok place
    | .error errno => .error (.system errno)

end Walk
end ContainerLaunch
