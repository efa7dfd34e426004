import ContainerLaunch.Error
import ContainerLaunch.Notice
import ContainerLaunch.Policy.Directive
/-!
# The administrator's policy

What the administrator allows, as a record of directives.  A directive that is
not given has its default; one that is given twice is an error, and so is a
value that the directive cannot have.  Unknown directives do not count.
-/

namespace ContainerLaunch

/-- The capabilities that the superuser starts with. -/
inductive RootCapabilities where
  | full
  /-- Those that the authorization table gives to `root` and its groups. -/
  | table
  | no
  deriving DecidableEq, Repr, Inhabited

namespace RootCapabilities

def name : RootCapabilities → String
  | .full => "full"
  | .table => "file"
  | .no => "no"

def all : List RootCapabilities := [.full, .table, .no]

def further : List (String × RootCapabilities) := [("none", .no)]

end RootCapabilities

structure Policy where
  allowSetuid : Bool
  allowPidNs : Bool
  allowIpcNs : Bool
  allowUtsNs : Bool
  allowUserNs : Bool
  allowSquashfs : Bool
  allowExtfs : Bool
  allowSandbox : Bool
  allowEncrypted : Bool
  allowSif : Bool
  /-- The places images must lie below, if any are given. -/
  limitPaths : List Path
  /-- The groups one of which must own an image, if any are given. -/
  limitGroups : List String
  /-- The users one of which must own an image, if any are given. -/
  limitOwners : List String
  enableOverlay : OverlayChoice
  enableUnderlay : Bool
  /-- What the superuser starts with. -/
  rootCapabilities : RootCapabilities
  mountSlave : Bool
  enableFusemount : Bool
  userBindControl : Bool
  bindPath : List String
  allowNetUsers : List String
  allowNetGroups : List String
  allowNetnsPaths : List Path
  deriving Inhabited

namespace Policy

/-- The policy in which no directive is given. -/
def default : Policy where
  allowSetuid := true
  allowPidNs := true
  allowIpcNs := true
  allowUtsNs := true
  allowUserNs := true
  allowSquashfs := true
  allowExtfs := true
  allowSandbox := true
  allowEncrypted := true
  allowSif := true
  limitPaths := []
  limitGroups := []
  limitOwners := []
  enableOverlay := .attempt
  enableUnderlay := true
  rootCapabilities := .full
  mountSlave := true
  enableFusemount := true
  userBindControl := true
  bindPath := ["/etc/localtime", "/etc/hosts"]
  allowNetUsers := []
  allowNetGroups := []
  allowNetnsPaths := []

/-- A directive that says yes or no. -/
def yesNoField (key : String) (get : Policy → Bool) (put : Bool → Policy → Policy) :
    Json.FieldOf Directive Policy where
  key := key
  write p := some (.bool (get p))
  read d p := d.switch?.map fun b => put b p
  required := false

def textsField (key : String) (get : Policy → List String)
    (put : List String → Policy → Policy) : Json.FieldOf Directive Policy where
  key := key
  write p := some (.array ((get p).map .string))
  read d p := d.texts?.map fun v => put v p
  required := false

def pathsField (key : String) (get : Policy → List Path) (put : List Path → Policy → Policy) :
    Json.FieldOf Directive Policy :=
  textsField key (fun p => (get p).map Path.text) fun v p => put (v.map Path.mk) p

def choiceField {α : Type} (key : String) (name : α → String) (all : List α)
    (further : List (String × α)) (get : Policy → α) (put : α → Policy → Policy) :
    Json.FieldOf Directive Policy where
  key := key
  write p := some (.string (name (get p)))
  read d p := (d.choice? name all further).map fun v => put v p
  required := false

def schema : Json.SchemaOf Directive Policy where
  fields := [
    yesNoField "allow-setuid" allowSetuid fun v p => { p with allowSetuid := v },
    yesNoField "allow-pid-ns" allowPidNs fun v p => { p with allowPidNs := v },
    yesNoField "allow-ipc-ns" allowIpcNs fun v p => { p with allowIpcNs := v },
    yesNoField "allow-uts-ns" allowUtsNs fun v p => { p with allowUtsNs := v },
    yesNoField "allow-user-ns" allowUserNs fun v p => { p with allowUserNs := v },
    yesNoField "allow-container-squashfs" allowSquashfs fun v p => { p with allowSquashfs := v },
    yesNoField "allow-container-extfs" allowExtfs fun v p => { p with allowExtfs := v },
    yesNoField "allow-container-dir" allowSandbox fun v p => { p with allowSandbox := v },
    yesNoField "allow-container-encrypted" allowEncrypted fun v p =>
      { p with allowEncrypted := v },
    yesNoField "allow-container-sif" allowSif fun v p => { p with allowSif := v },
    pathsField "limit-container-paths" limitPaths fun v p => { p with limitPaths := v },
    textsField "limit-container-groups" limitGroups fun v p => { p with limitGroups := v },
    textsField "limit-container-owners" limitOwners fun v p => { p with limitOwners := v },
    choiceField "enable-overlay" OverlayChoice.name OverlayChoice.all [] enableOverlay fun v p =>
      { p with enableOverlay := v },
    yesNoField "enable-underlay" enableUnderlay fun v p => { p with enableUnderlay := v },
    choiceField "root-default-capabilities" RootCapabilities.name RootCapabilities.all
      RootCapabilities.further rootCapabilities fun v p => { p with rootCapabilities := v },
    yesNoField "mount-slave" mountSlave fun v p => { p with mountSlave := v },
    yesNoField "enable-fusemount" enableFusemount fun v p => { p with enableFusemount := v },
    yesNoField "user-bind-control" userBindControl fun v p => { p with userBindControl := v },
    textsField "bind-path" bindPath fun v p => { p with bindPath := v },
    textsField "allow-net-users" allowNetUsers fun v p => { p with allowNetUsers := v },
    textsField "allow-net-groups" allowNetGroups fun v p => { p with allowNetGroups := v },
    pathsField "allow-netns-paths" allowNetnsPaths fun v p => { p with allowNetnsPaths := v }]
  initial := default

def asJson (p : Policy) : Json :=
  schema.write p

def ofJson? : Json → Option Policy
  | .object entries => schema.readObject (entries.map fun e => (e.1, .ofJson e.2))
  | .array items => Json.SchemaOf.readItems schema.initial schema.fields (items.map .ofJson)
  | _ => none

/-- The key of an entry of a mapping and its value; only a scalar is a key. -/
def entryOf (root : Yaml.Node) (entry : Yaml.Node × Yaml.Node) : Option (String × Directive) :=
  match root.target entry.1 with
  | some (.scalar _ _ key) => some (key, .ofYaml root entry.2)
  | _ => none

/-- The policy that a YAML document describes. -/
def ofYaml? (root : Yaml.Node) : Option Policy :=
  match root.target root with
  | some (.mapping entries) => entries.mapM (entryOf root) >>= schema.readObject
  | some (.scalar _ true "") => some default
  | _ => none

/-- The policy that a text describes; a blank text describes the default. -/
def parse (text : String) : Except Error Policy :=
  if Text.trim text = "" then .ok default
  else
    match Yaml.Node.parse text >>= ofYaml? with
    | some p => .ok p
    | none => .error (.malformed "not an administrator configuration")

/-- The propagation of mounts that the container root gets. -/
def propagation (p : Policy) : String :=
  if p.mountSlave then "rslave" else "rprivate"

end Policy
end ContainerLaunch
