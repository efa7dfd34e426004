import ContainerLaunch.Launch.Draft
import ContainerLaunch.Layer.Select
/-!
# The stack of images

The image with the root file system, the overlays above it and the images that
are bound into the container are opened in this order, and the session layer is
chosen in between.  Among all overlays at most one is written.
-/

namespace ContainerLaunch.Draft

/-- What the choice of the session layer depends on. -/
def layerInputs (l : Launcher) (policy : Policy) (c : LaunchConfig) (root : Image)
    (lowerIncompatible : Option String) : LayerConditions where
  writableImage := c.writableImage
  overlayImages := !c.overlayImages.isEmpty
  writableTmpfs := c.writableTmpfs
  enableOverlay := policy.enableOverlay
  enableUnderlay := policy.enableUnderlay
  kernelOverlay := l.facts.features.knowsOverlay
  userNamespace := l.facts.features.inUserNamespace || c.namespaces.has .user
  rootlessOverlay := l.facts.features.rootlessOverlay
  sifExt3Overlay := root.hasWritableOverlay
  lowerIncompatible := lowerIncompatible

/-- The configuration with a layer, and without the requests that it cannot
serve. -/
def applyLayer (c : LaunchConfig) (decision : LayerOutcome) : LaunchConfig :=
  { c with
    sessionLayer := decision.layer
    writableTmpfs := c.writableTmpfs && !decision.disableTmpfs
    overlayImages := if decision.dropImages then [] else c.overlayImages }

/-- A draft with the session layer over a root image. -/
def withLayer (l : Launcher) (policy : Policy) (root : Image) (d : Draft) : Action Draft := do
  let h ← Action.observe id
  let lower := if root.format = .sandbox then LowerFileSystem.reason h root.path else none
  let choice ← Action.ofExcept (LayerChoice.choose (layerInputs l policy d.config root lower))
  Action.notifyAll choice.notices
  return { d with config := applyLayer d.config choice.decision }

/-- A SIF image that is to be written has a root file system that can be written,
or an overlay that is used. -/
def requireWritableRoot (root : Image) (writable overlayLayer : Bool) : Except Error Unit :=
  if !writable || !root.format.isSif then .ok ()
  else do
    let partition ← root.rootPartition
    if partition.fs = .ext3 || (overlayLayer && root.hasWritableOverlay) then .ok ()
    else .error (.invalid s!"no SIF writable overlay partition found in {root.path}")

/-- Two overlays that would both be written. -/
def secondWritable (existing path : Path) : Error :=
  .invalid (s!"you can't specify more than one writable overlay, {existing} contains a " ++
    s!"writable overlay, requires to use '--overlay {path}:ro'")

/-- The overlays that are asked for, and which overlay is written, after those
that were opened before. -/
def loadOverlays (l : Launcher) (policy : Policy) (written : Option Path) :
    List OverlayRequest → Action (List Image × Option Path)
  | [] => return ([], written)
  | spec :: rest => do
    let image ← Image.load policy l.inspect spec.path spec.writable
    let image := { image with usage := .overlay }
    if spec.writable && image.writable then
      match written with
      | some existing => Action.fail (secondWritable existing image.path)
      | none =>
        let (images, written) ← loadOverlays l policy (some image.path) rest
        return (image :: images, written)
    else
      let (images, written) ← loadOverlays l policy written rest
      return (image :: images, written)

/-- The overlays of a launch with an overlay layer. -/
def overlayImages (l : Launcher) (policy : Policy) (root : Image) (c : LaunchConfig) :
    Action (List Image) := do
  let embedded := root.format.isSif && c.writableImage && root.hasWritableOverlay
  let (images, written) ← loadOverlays l policy (if embedded then some root.path else none)
    (c.overlayImages.map OverlayRequest.parse)
  match c.writableTmpfs, written with
  | true, some path =>
    Action.fail (.invalid
      s!"you can't specify --writable-tmpfs with another writable overlay image ({path})")
  | _, _ => return images

/-- A partition that a bind mount names exists. -/
def checkPartition (b : BindMount) (image : Image) : Except Error Unit :=
  match b.id with
  | some id =>
    if id = 0 ∨ image.partitions.length < id.toNat then
      .error (.invalid s!"partition ID {id} not found in {image.path}")
    else .ok ()
  | none => .ok ()

/-- An image that is bound into the container, and the bind mount with the open
image as its source. -/
def loadBind (l : Launcher) (policy : Policy) (b : BindMount) : Action (BindMount × Image) := do
  let image ← Image.load policy l.inspect b.source (!b.readonly)
  let image := { image with usage := .data }
  if !b.readonly && !image.writable then
    Action.notify (.boundReadOnly image.path b.destination)
  Action.ofExcept (checkPartition b image)
  return ({ b with source := image.source, readonly := b.readonly || !image.writable }, image)

/-- The bind mounts with their images opened, and those images. -/
def loadBinds (l : Launcher) (policy : Policy) :
    List BindMount → Action (List BindMount × List Image)
  | [] => return ([], [])
  | b :: rest => do
    if b.namesImage then
      let (b, image) ← loadBind l policy b
      let (binds, images) ← loadBinds l policy rest
      return (b :: binds, image :: images)
    else
      let (binds, images) ← loadBinds l policy rest
      return (b :: binds, images)

/-- A draft that enters a sandbox through its descriptor, or through that of its
parent directory if the sandbox is a FUSE mount. -/
def enterSandbox (root : Image) (d : Draft) : Action Draft := do
  if root.path.same ⟨"/"⟩ then Action.fail (.disallowed "/ as a sandbox")
  if d.config.imageFuse then
    let directory ← Action.openFile .directory (root.path.parent?.getD ⟨"/"⟩)
    let d ← Action.ofExcept (d.keepFile directory)
    return { d with plan := { d.plan with workingDirectoryFd := some (descriptor directory) } }
  else
    return { d with plan := { d.plan with workingDirectoryFd := some (descriptor root.file) } }

/-- What the next stage is told about an image. -/
def entryOf (image : Image) : HeldImage where
  path := image.path
  source := image.source
  format := image.format
  usage := image.usage
  writable := image.writable
  fd := descriptor image.file

def addImage (d : Draft) (image : Image) : Except Error Draft := do
  let d ← d.keep (descriptor image.file)
  return { d with
    config := { d.config with imageList := d.config.imageList ++ [entryOf image] }
    images := d.images ++ [image] }

/-- A draft with all the images of a new container. -/
def withImages (l : Launcher) (policy : Policy) (d : Draft) : Action Draft := do
  let writable := d.config.writableImage
  if writable && !d.config.overlayImages.isEmpty then
    Action.fail (.invalid "you could not use --overlay in conjunction with --writable")
  let root ← Image.load policy l.inspect d.config.image writable
  if writable && !root.writable then
    Action.fail (.invalid
      s!"could not use {root.path} for writing, you don't have write permissions")
  let d ← d.withLayer l policy root
  let overlayLayer := d.config.sessionLayer = .overlay
  Action.ofExcept (requireWritableRoot root writable overlayLayer)
  let overlays ← if overlayLayer then overlayImages l policy root d.config else pure []
  let (bindPaths, binds) ← loadBinds l policy d.config.bindPaths
  let d := { d with
    config := { d.config with bindPaths := bindPaths }
    plan := { d.plan with imageFd := some (descriptor root.file) } }
  let d ← if root.format = .sandbox then d.enterSandbox root else pure d
  Action.ofExcept ((root :: overlays ++ binds).foldlM addImage d)

end ContainerLaunch.Draft
