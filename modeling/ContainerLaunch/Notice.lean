import ContainerLaunch.Error
import ContainerLaunch.Json.Codec
import ContainerLaunch.Namespace.Basic
/-!
# Session layers and notices

The ways in which the view of the root file system is put together: an overlay
mount, bind mounts stacked as an underlay, or nothing above the image.

What is told to the user beside the answer: requests that were reduced, a layer
that was fallen back to, and failures that do not end the work.
-/

namespace ContainerLaunch

/-! ## Session layers -/

/-- How the root file system is composed. -/
inductive SessionLayer where
  | none
  | overlay
  | underlay
  deriving DecidableEq, Repr, Inhabited

namespace SessionLayer

def name : SessionLayer → String
  | .none => "none"
  | .overlay => "overlay"
  | .underlay => "underlay"

def codec : Json.Codec SessionLayer := .choice name [.none, .overlay, .underlay] []

end SessionLayer

/-- The administrator's choice about overlay mounts. -/
inductive OverlayChoice where
  | yes
  | attempt
  | no
  deriving DecidableEq, Repr, Inhabited

namespace OverlayChoice

def name : OverlayChoice → String
  | .yes => "yes"
  | .attempt => "try"
  | .no => "no"

def all : List OverlayChoice := [.yes, .attempt, .no]

def isEnabled : OverlayChoice → Bool
  | .no => false
  | _ => true

def codec : Json.Codec OverlayChoice := .choice name all []

end OverlayChoice

/-! ## Notices -/

/-- Something the user is told. -/
inductive Notice where
  | unknownAdds (names : List String)
  | unknownDrops (names : List String)
  | notAuthorized (names : List String)
  | notVirtualized (kind : NamespaceKind)
  | hostnameIgnored
  | openedReadOnly (path : Path)
  | boundReadOnly (image destination : Path)
  /-- The current working directory is not known. -/
  | noWorkingDirectory
  | tooManyGroups (limit : Nat)
  | noUnderlay
  | fallback (layer : SessionLayer) (reason : String)
  | tmpfsWithoutOverlay
  | imagesWithoutOverlay
  | tmpfsOnUnderlay
  /-- A part of a cleanup failed. -/
  | cleanupFailure (what : String)
  | taskFailed (error : Error)
  | statusNotSent (cause : IoError)
  deriving DecidableEq, Repr, Inhabited

namespace Notice

def message : Notice → String
  | .unknownAdds names => "won't add unknown capability: " ++ Text.join "," names
  | .unknownDrops names => "won't drop unknown capability: " ++ Text.join "," names
  | .notAuthorized names => "not authorized to add capability: " ++ Text.join "," names
  | .notVirtualized kind => s!"Not virtualizing {kind.name} namespace by configuration"
  | .hostnameIgnored => "Container hostname cannot be set."
  | .openedReadOnly path => s!"{path} is on a read-only filesystem, opening read-only"
  | .boundReadOnly image destination =>
    s!"{image} is not writable, binding {destination} read-only"
  | .noWorkingDirectory => "can't determine current working directory"
  | .tooManyGroups limit => s!"you can't specify more than {limit} group IDs"
  | .noUnderlay => "Could not fallback to underlay, disabled by configuration"
  | .fallback layer reason => s!"Fallback to {layer.name} layer: {reason}"
  | .tmpfsWithoutOverlay =>
    "--writable-tmpfs disabled due to sandbox filesystem incompatibility with overlay"
  | .imagesWithoutOverlay =>
    "overlay image(s) not loaded due to sandbox filesystem incompatibility with overlay"
  | .tmpfsOnUnderlay =>
    "Disabling --writable-tmpfs as it can't be used in conjunction with underlay"
  | .cleanupFailure what => s!"cleanup: {what}"
  | .taskFailed error => s!"lifecycle action failed: {error.message}"
  | .statusNotSent cause => s!"could not send lifecycle status: {cause.message}"

end Notice
end ContainerLaunch
