import ContainerLaunch.Json.Codec
/-!
# Namespaces

The kinds of namespace, and the list of namespaces that a launch asks for.  A
namespace without a path is created, one with a path is joined.

A list made by `add` has at most one entry of a kind, but a list read from a
request may have several; every operation here is defined on all lists.
-/

namespace ContainerLaunch

/-- The kinds of namespace, in the order in which a plan lists them. -/
inductive NamespaceKind where
  | user
  | ipc
  | uts
  | pid
  | network
  | mount
  | cgroup
  deriving DecidableEq, Repr, Inhabited

namespace NamespaceKind

def all : List NamespaceKind := [.user, .ipc, .uts, .pid, .network, .mount, .cgroup]

def name : NamespaceKind → String
  | .user => "user"
  | .ipc => "ipc"
  | .uts => "uts"
  | .pid => "pid"
  | .network => "network"
  | .mount => "mount"
  | .cgroup => "cgroup"

/-- The entry of a kind in the `ns` directory of a process. -/
def entryName : NamespaceKind → String
  | .user => "user"
  | .ipc => "ipc"
  | .uts => "uts"
  | .pid => "pid"
  | .network => "net"
  | .mount => "mnt"
  | .cgroup => "cgroup"

/-- The flag that creates a namespace of a kind. -/
def creationFlag : NamespaceKind → UInt32
  | .user => 0x10000000
  | .ipc => 0x08000000
  | .uts => 0x04000000
  | .pid => 0x20000000
  | .network => 0x40000000
  | .mount => 0x00020000
  | .cgroup => 0x02000000

def codec : Json.Codec NamespaceKind := .choice name all []

theorem mem_all (k : NamespaceKind) : k ∈ all := by
  cases k <;> simp [all]

end NamespaceKind

/-- A namespace that a launch asks for. -/
structure Namespace where
  kind : NamespaceKind
  /-- The namespace to join; without it a new one is created. -/
  path : Option Path
  deriving DecidableEq, Repr, Inhabited

namespace Namespace

def create (kind : NamespaceKind) : Namespace := ⟨kind, none⟩

def enter (kind : NamespaceKind) (path : Path) : Namespace := ⟨kind, some path⟩

def schema : Json.Schema Namespace where
  fields := [
    .needed "type" NamespaceKind.codec kind fun v n => { n with kind := v },
    .optional "path" .path path fun v n => { n with path := v }]
  initial := create .user

end Namespace

/-- The namespaces that a launch asks for, in order. -/
structure NamespaceList where
  items : List Namespace
  deriving DecidableEq, Repr, Inhabited

namespace NamespaceList

def empty : NamespaceList := ⟨[]⟩

/-- A list with the first entry of the kind of `n` replaced by it, or `n` put
last. -/
def addTo (n : Namespace) : List Namespace → List Namespace
  | [] => [n]
  | m :: rest => if m.kind = n.kind then n :: rest else m :: addTo n rest

/-- A namespace put in the place of the first of its kind, or last. -/
def add (s : NamespaceList) (n : Namespace) : NamespaceList :=
  ⟨addTo n s.items⟩

/-- Whether there is a namespace of a kind. -/
def has (s : NamespaceList) (kind : NamespaceKind) : Bool :=
  s.items.any fun n => n.kind == kind

/-- The first namespace of a kind. -/
def get? (s : NamespaceList) (kind : NamespaceKind) : Option Namespace :=
  s.items.find? fun n => n.kind == kind

/-- The list without the namespaces of a kind. -/
def erase (s : NamespaceList) (kind : NamespaceKind) : NamespaceList :=
  ⟨s.items.filter fun n => n.kind != kind⟩

/-- The list without the namespaces of a kind, and whether it has become shorter. -/
def remove (s : NamespaceList) (kind : NamespaceKind) : Bool × NamespaceList :=
  let left := s.erase kind
  (left.items.length != s.items.length, left)

/-- The flags of the namespaces to be created. -/
def creationFlags (s : NamespaceList) : UInt32 :=
  (s.items.filter fun n => n.path.isNone).foldl (fun flags n => flags ||| n.kind.creationFlag) 0

/-- The kinds and paths of the namespaces to be joined, in order. -/
def joins (s : NamespaceList) : List (NamespaceKind × Path) :=
  s.items.filterMap fun n => n.path.map fun p => (n.kind, p)

/-- The path of a kind of namespace relative to the directory of a process. -/
def procPath (kind : NamespaceKind) : Path :=
  Path.join ⟨"ns"⟩ ⟨kind.entryName⟩

/-- The list with every namespace to be joined through the directory of a
process. -/
def relativeToProcess (s : NamespaceList) : NamespaceList :=
  ⟨s.items.map fun n => { n with path := some (procPath n.kind) }⟩

/-- The list of namespaces added one after the other. -/
def ofList (ns : List Namespace) : NamespaceList :=
  ns.foldl add empty

/-- A list of namespaces as JSON; repeated kinds are kept. -/
def codec : Json.Codec NamespaceList where
  write s := (Json.Codec.list Namespace.schema.codec).write s.items
  read j := ((Json.Codec.list Namespace.schema.codec).read j).map fun ns => ⟨ns⟩

theorem has_iff {s : NamespaceList} {kind : NamespaceKind} :
    s.has kind = true ↔ ∃ n ∈ s.items, n.kind = kind := by
  simp [has]

theorem procPath_eq (k : NamespaceKind) : procPath k = ⟨"ns/" ++ k.entryName⟩ := by
  cases k <;> decide

/-- A list becomes shorter exactly if there is something to take out. -/
theorem remove_eq (s : NamespaceList) (kind : NamespaceKind) :
    s.remove kind = (s.has kind, s.erase kind) := by
  have hlength : (s.erase kind).items.length = s.items.length ↔ ∀ n ∈ s.items, n.kind ≠ kind := by
    simp [erase, List.length_filter_eq_length_iff]
  refine Prod.ext ?_ rfl
  rw [Bool.eq_iff_iff, remove, bne_iff_ne, ne_eq, hlength, has_iff]
  simp

end NamespaceList
end ContainerLaunch
