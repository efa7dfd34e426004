import ContainerLaunch.Caller
import ContainerLaunch.Capability.Classes
import ContainerLaunch.IdMap.Basic
import ContainerLaunch.Image.Basic
import ContainerLaunch.Json.Printer
import ContainerLaunch.Json.Reader
import ContainerLaunch.Notice
import ContainerLaunch.Mounts.Fuse
import ContainerLaunch.Namespace.Basic
/-!
# The configuration of a launch

One record holds what a launch asks for and, once it is prepared, what was
decided about it.  It is read from the request and written for the next stage in
the same form.
-/

namespace ContainerLaunch

/-- The settings of the container's process. -/
structure ProcessSettings where
  args : List String
  env : SortedMap String String
  capabilities : CapabilityClasses
  noNewPrivileges : Bool
  selinuxLabel : Option String
  apparmorProfile : Option String
  seccomp : Option Json
  deriving BEq, Inhabited

namespace ProcessSettings

def default : ProcessSettings := ⟨[], .empty, .none, false, none, none, none⟩

def schema : Json.Schema ProcessSettings where
  fields := [
    .plain "args" (.list .text) args fun v p => { p with args := v },
    .plain "env" (.dictionary .text) env fun v p => { p with env := v },
    .plain "capabilities" CapabilityClasses.schema.codec capabilities
      fun v p => { p with capabilities := v },
    .plain "noNewPrivileges" .flag noNewPrivileges fun v p => { p with noNewPrivileges := v },
    .optional "selinuxLabel" .text selinuxLabel fun v p => { p with selinuxLabel := v },
    .optional "apparmorProfile" .text apparmorProfile fun v p => { p with apparmorProfile := v },
    .optional "seccomp" (.anything 125) seccomp fun v p => { p with seccomp := v }]
  initial := default

end ProcessSettings

/-- A bind mount that the user asks for. -/
structure BindMount where
  source : Path
  destination : Path
  readonly : Bool
  imageSource : Option String
  /-- The partition of an image that is mounted, counted from 1. -/
  id : Option UInt32
  deriving DecidableEq, Repr, Inhabited

namespace BindMount

def namesImage (b : BindMount) : Bool :=
  b.imageSource.isSome || b.id.isSome

def schema : Json.Schema BindMount where
  fields := [
    .plain "source" .path source fun v b => { b with source := v },
    .plain "destination" .path destination fun v b => { b with destination := v },
    .plain "readonly" .flag readonly fun v b => { b with readonly := v },
    .optional "imageSrc" .text imageSource fun v b => { b with imageSource := v },
    .optional "id" .u32 BindMount.id fun v b => { b with id := v }]
  initial := ⟨⟨""⟩, ⟨""⟩, false, none, none⟩

end BindMount

/-- An image that is kept open for the container. -/
structure HeldImage where
  path : Path
  /-- The path under which the next stage finds it. -/
  source : Path
  format : ImageFormat
  usage : ImageRole
  writable : Bool
  fd : Int32
  deriving DecidableEq, Repr, Inhabited

namespace HeldImage

def schema : Json.Schema HeldImage where
  fields := [
    .needed "path" .path path fun v e => { e with path := v },
    .needed "source" .path source fun v e => { e with source := v },
    .needed "format" ImageFormat.codec format fun v e => { e with format := v },
    .needed "usage" ImageRole.codec usage fun v e => { e with usage := v },
    .needed "writable" .flag writable fun v e => { e with writable := v },
    .needed "fd" .i32 fd fun v e => { e with fd := v }]
  initial := ⟨⟨""⟩, ⟨""⟩, .squashfs, .root, false, 0⟩

end HeldImage

/-- What a launch asks for, and what was decided about it. -/
structure LaunchConfig where
  image : Path
  writableImage : Bool
  writableTmpfs : Bool
  overlayImages : List String
  bindPaths : List BindMount
  fuseMounts : List FuseMount
  namespaces : NamespaceList
  hostname : Option String
  security : List String
  addCaps : List String
  dropCaps : List String
  noPrivs : Bool
  /-- Whether the superuser keeps its privileges. -/
  keepPrivs : Bool
  /-- Whether the container has a fake superuser. -/
  fakeroot : Bool
  noSetgroups : Bool
  instanceStart : Bool
  instanceJoin : Option String
  instanceFile : Option Path
  /-- The user to run as, for the superuser. -/
  targetUid : UInt32
  /-- The groups to run as, for the superuser. -/
  targetGids : List UInt32
  cwd : Option Path
  homeSource : Option Path
  homeDest : Option Path
  contain : Bool
  workdir : Option Path
  imageFuse : Bool
  deleteTempDir : Option Path
  deletePullTempDir : Option Path
  nvCcli : Bool
  configurationFile : Option Path
  process : ProcessSettings
  uidMappings : List IdMapLine
  gidMappings : List IdMapLine
  sessionLayer : SessionLayer
  userInfo : Option ContainerUser
  imageList : List HeldImage
  signalPropagation : Bool
  unixSocketPair : Option (Int32 × Int32)
  openFds : List Int32
  deriving BEq, Inhabited

namespace LaunchConfig

/-- The configuration when nothing is asked for. -/
def default : LaunchConfig where
  image := ⟨""⟩
  writableImage := false
  writableTmpfs := false
  overlayImages := []
  bindPaths := []
  fuseMounts := []
  namespaces := .empty
  hostname := none
  security := []
  addCaps := []
  dropCaps := []
  noPrivs := false
  keepPrivs := false
  fakeroot := false
  noSetgroups := false
  instanceStart := false
  instanceJoin := none
  instanceFile := none
  targetUid := 0
  targetGids := []
  cwd := none
  homeSource := none
  homeDest := none
  contain := false
  workdir := none
  imageFuse := false
  deleteTempDir := none
  deletePullTempDir := none
  nvCcli := false
  configurationFile := none
  process := .default
  uidMappings := []
  gidMappings := []
  sessionLayer := .none
  userInfo := none
  imageList := []
  signalPropagation := false
  unixSocketPair := none
  openFds := []

def schema : Json.Schema LaunchConfig where
  fields := [
    .plain "image" .path image fun v c => { c with image := v },
    .plain "writableImage" .flag writableImage fun v c => { c with writableImage := v },
    .plain "writableTmpfs" .flag writableTmpfs fun v c => { c with writableTmpfs := v },
    .plain "overlayImages" (.list .text) overlayImages fun v c => { c with overlayImages := v },
    .plain "bindPaths" (.list BindMount.schema.codec) bindPaths
      fun v c => { c with bindPaths := v },
    .plain "fuseMounts" (.list FuseMount.schema.codec) fuseMounts
      fun v c => { c with fuseMounts := v },
    .plain "namespaces" NamespaceList.codec namespaces fun v c => { c with namespaces := v },
    .optional "hostname" .text hostname fun v c => { c with hostname := v },
    .plain "security" (.list .text) security fun v c => { c with security := v },
    .plain "addCaps" (.list .text) addCaps fun v c => { c with addCaps := v },
    .plain "dropCaps" (.list .text) dropCaps fun v c => { c with dropCaps := v },
    .plain "noPrivs" .flag noPrivs fun v c => { c with noPrivs := v },
    .plain "keepPrivs" .flag keepPrivs fun v c => { c with keepPrivs := v },
    .plain "fakeroot" .flag fakeroot fun v c => { c with fakeroot := v },
    .plain "noSetgroups" .flag noSetgroups fun v c => { c with noSetgroups := v },
    .plain "instance" .flag instanceStart fun v c => { c with instanceStart := v },
    .optional "instanceJoin" .text instanceJoin fun v c => { c with instanceJoin := v },
    .optional "instanceFile" .path instanceFile fun v c => { c with instanceFile := v },
    .plain "targetUid" .u32 targetUid fun v c => { c with targetUid := v },
    .plain "targetGids" (.list .u32) targetGids fun v c => { c with targetGids := v },
    .optional "cwd" .path cwd fun v c => { c with cwd := v },
    .optional "homeSource" .path homeSource fun v c => { c with homeSource := v },
    .optional "homeDest" .path homeDest fun v c => { c with homeDest := v },
    .plain "contain" .flag contain fun v c => { c with contain := v },
    .optional "workdir" .path workdir fun v c => { c with workdir := v },
    .plain "imageFuse" .flag imageFuse fun v c => { c with imageFuse := v },
    .optional "deleteTempDir" .path deleteTempDir fun v c => { c with deleteTempDir := v },
    .optional "deletePullTempDir" .path deletePullTempDir
      fun v c => { c with deletePullTempDir := v },
    .plain "nvCcli" .flag nvCcli fun v c => { c with nvCcli := v },
    .optional "configurationFile" .path configurationFile
      fun v c => { c with configurationFile := v },
    .plain "process" ProcessSettings.schema.codec process fun v c => { c with process := v },
    .plain "uidMappings" (.list IdMapLine.schema.codec) uidMappings
      fun v c => { c with uidMappings := v },
    .plain "gidMappings" (.list IdMapLine.schema.codec) gidMappings
      fun v c => { c with gidMappings := v },
    .plain "sessionLayer" SessionLayer.codec sessionLayer fun v c => { c with sessionLayer := v },
    .optional "userInfo" ContainerUser.schema.codec userInfo fun v c => { c with userInfo := v },
    .plain "imageList" (.list HeldImage.schema.codec) imageList
      fun v c => { c with imageList := v },
    .plain "signalPropagation" .flag signalPropagation
      fun v c => { c with signalPropagation := v },
    .optional "unixSocketPair" (.pair .i32 .i32) unixSocketPair
      fun v c => { c with unixSocketPair := v },
    .plain "openFds" (.list .i32) openFds fun v c => { c with openFds := v }]
  initial := default

def parse (text : String) : Except Error LaunchConfig :=
  match Json.parse text >>= schema.read with
  | some config => .ok config
  | none => .error (.malformed "not a launch configuration")

def load (h : Host) (p : Path) : Except Error LaunchConfig :=
  match h.readText p with
  | .ok text => parse text
  | .error cause => .error (.atPath p cause)

/-- A configuration as the next stage reads it. -/
def payload (c : LaunchConfig) : String :=
  (schema.write c).compact

/-- The value of a security option with a key, if it is of that key and not
empty. -/
def optionOf (key entry : String) : Option String :=
  match Text.splitOnce ':' entry with
  | some (k, value) => if k = key ∧ value ≠ "" then some value else none
  | none => none

/-- The value of the first security option of a key that is not empty. -/
def securityOption (c : LaunchConfig) (key : String) : Option String :=
  c.security.findSome? (optionOf key)

end LaunchConfig
end ContainerLaunch
