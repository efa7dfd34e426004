import ContainerLaunch.Host.State
import ContainerLaunch.Notice
/-!
# Choosing the session layer

Which layer a launch gets, given what it asks for, what the administrator allows
and what the kernel and the file system below the image can do.  The rules are
tried in a fixed order, and a request that the chosen layer cannot serve is
either refused or cleared and told.
-/

namespace ContainerLaunch

/-- What the choice of a layer depends on. -/
structure LayerConditions where
  writableImage : Bool
  overlayImages : Bool
  writableTmpfs : Bool
  enableOverlay : OverlayChoice
  enableUnderlay : Bool
  kernelOverlay : Bool
  userNamespace : Bool
  rootlessOverlay : Bool
  sifExt3Overlay : Bool
  /-- Why the image cannot lie below an overlay, if it cannot. -/
  lowerIncompatible : Option String
  deriving DecidableEq, Repr, Inhabited

/-- The chosen layer, and which requests are cleared because of it. -/
structure LayerOutcome where
  layer : SessionLayer
  disableTmpfs : Bool
  dropImages : Bool
  deriving DecidableEq, Repr, Inhabited

/-- A chosen layer with what the user is told. -/
structure LayerChoice where
  decision : LayerOutcome
  notices : List Notice
  deriving DecidableEq, Inhabited

namespace LayerChoice

def unconditional (layer : SessionLayer) : LayerChoice := ⟨⟨layer, false, false⟩, []⟩

/-- An underlay, which cannot serve a writable tmpfs. -/
def underlay (i : LayerConditions) : LayerChoice :=
  if i.writableTmpfs then ⟨⟨.underlay, true, false⟩, [.tmpfsOnUnderlay]⟩
  else unconditional .underlay

/-- What takes the place of an overlay that cannot be put over the image. -/
def fallback (i : LayerConditions) (reason : String) : LayerChoice :=
  let layer := if i.enableUnderlay then SessionLayer.underlay else .none
  { decision := ⟨layer, i.writableTmpfs, i.overlayImages⟩
    notices := (if i.enableUnderlay then [] else [.noUnderlay]) ++
      (if i.writableTmpfs || i.overlayImages then [.fallback layer reason] else []) ++
      (if i.writableTmpfs then [.tmpfsWithoutOverlay] else []) ++
      (if i.overlayImages then [.imagesWithoutOverlay] else []) }

/-- The choice in a user namespace in which no overlay can be mounted. -/
def rootless (i : LayerConditions) : LayerChoice :=
  if !i.enableUnderlay || i.writableImage then unconditional .none else underlay i

/-- The choice where an overlay is possible and allowed. -/
def overlay (i : LayerConditions) : LayerChoice :=
  if i.writableImage && !i.sifExt3Overlay then unconditional .none
  else
    match i.lowerIncompatible with
    | none => unconditional .overlay
    | some reason => fallback i reason

/-- The choice where no overlay is used. -/
def withoutOverlay (i : LayerConditions) : LayerChoice :=
  if !i.writableImage && i.enableUnderlay then underlay i else unconditional .none

/-- Why the requests cannot be served without the overlays that the
administrator switched off. -/
def refusedByPolicy (i : LayerConditions) : Except Error Unit :=
  if i.overlayImages then .error (.disabled "overlay images" "enable-overlay: no")
  else if i.writableTmpfs then .error (.disabled "--writable-tmpfs" "enable-overlay: no")
  else .ok ()

/-- Why the requests cannot be served by a kernel without overlays. -/
def refusedByKernel (i : LayerConditions) : Except Error Unit :=
  if i.writableTmpfs then
    .error (.unavailable "overlay" "--writable-tmpfs requires overlay kernel support")
  else if i.overlayImages then
    .error (.unavailable "overlay" "overlay images require overlay kernel support")
  else .ok ()

def choose (i : LayerConditions) : Except Error LayerChoice :=
  if i.writableImage && i.overlayImages then
    .error (.invalid "you could not use --overlay in conjunction with --writable")
  else if i.userNamespace && !(i.enableOverlay.isEnabled && i.rootlessOverlay) then
    .ok (rootless i)
  else if i.kernelOverlay && i.enableOverlay.isEnabled then .ok (overlay i)
  else do
    if i.kernelOverlay then refusedByPolicy i else refusedByKernel i
    return withoutOverlay i

end LayerChoice

/-- File systems that cannot lie below an overlay. -/
structure LowerFileSystem where
  /-- The magic number. -/
  magic : Int
  name : String
  deriving DecidableEq, Repr

namespace LowerFileSystem

/-- The file systems that cannot lie below an overlay. -/
def incompatible : List LowerFileSystem := [
  ⟨0x0BD00BD0, "Lustre"⟩, ⟨0x47504653, "GPFS"⟩, ⟨0xAAD7AAEA, "PanFS"⟩, ⟨0xF15F, "ecryptfs"⟩]

def nameOf (magic : Int) : Option String :=
  (incompatible.find? fun f => f.magic == magic).map name

def check (h : Host) (p : Path) : Except Error (Option String) :=
  match h.fileSystem p with
  | .ok magic => .ok (nameOf magic)
  | .error errno => .error (.call "statfs" errno)

/-- Why a path cannot lie below an overlay, if it is known not to. -/
def reason (h : Host) (p : Path) : Option String :=
  match check h p with
  | .ok (some name) => some s!"{name} is not supported as an overlay lower directory"
  | _ => none

end LowerFileSystem
end ContainerLaunch
