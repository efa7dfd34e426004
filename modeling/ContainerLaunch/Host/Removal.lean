import ContainerLaunch.Host.Action
/-!
# Removing directories

A directory is removed with all it holds: its entries first, then the directory
itself by the same path.  Where that last step fails the entries are gone all
the same.  Of a link only the link itself is removed, and the links to open
descriptors and the directories that lead to them are not removed at all.
-/

namespace ContainerLaunch

namespace Host

/-- A path without the slashes at its end. -/
def withoutEndSlashes (p : Path) : Path :=
  ⟨String.ofList (Text.dropTrailing (· == '/') p.text.toList)⟩

/-- What removing an empty directory leaves on the host.  The last step of the
path has to be the name of the directory. -/
def removingEmpty (h : Host) (p : Path) : Except IoError Host :=
  let p := withoutEndSlashes p
  match (Step.ofPath p).getLast? with
  | none => .error (.system .busy)
  | some last => do
    let place ← h.resolve false p
    match last with
    | .here => .error (.system .invalidArgument)
    | .up => .error (.system .notEmpty)
    | .enter _ =>
      match h.look place with
      | none => .error (.system .noEntry)
      | some inode =>
        if inode.isDirectory then .ok { h with tree := h.tree.prune place }
        else .error (.system .notDirectory)

/-- What removing a directory and all it holds leaves on the host, and whether it
was removed. -/
def removing (h : Host) (p : Path) : Except IoError Unit × Host :=
  match h.resolve false p with
  | .error cause => (.error cause, h)
  | .ok place =>
    if (h.descriptorLink place).isSome then (.error (.system .notPermitted), h)
    else
      match (h.look place).map Inode.node with
      | none => (.error (.system .noEntry), h)
      | some (.link _) | some .sealedLink => (.ok (), { h with tree := h.tree.prune place })
      | some .directory =>
        let hollow := { h with tree := h.tree.hollow place }
        match hollow.removingEmpty p with
        | .ok h => (.ok (), h)
        | .error cause => (.error cause, hollow)
      | some _ => (.error (.system .notDirectory), h)

end Host

namespace Action

/-- A directory and all it holds is removed; one that is not there counts as
removed. -/
def removeAll (p : Path) : Action Unit := do
  let (removed, h) := (← get).removing p
  set h
  match removed with
  | .ok () => return ()
  | .error cause => if cause.isNotFound then return () else fail (.atPath p cause)

end Action
end ContainerLaunch
