import ContainerLaunch.Proofs.Launch.Writing
import ContainerLaunch.Proofs.ServedOverlays
import ContainerLaunch.Proofs.Text
/-!
# The way an overlay is used

A request for an overlay is a path and, after a colon, the way it is used.  It is split at
its first colon, so the way is that of the request if the path holds no colon itself.  A
path with a colon is cut short there, and whatever the request says at its end, the overlay
at the shorter path is opened for writing.
-/

namespace ContainerLaunch

namespace OverlayRequest

theorem parse_of_not_mem {p : String} (hp : ':' ∉ p.toList) (mode : String) :
    parse (p ++ ":" ++ mode) = ⟨⟨p⟩, mode != "ro"⟩ := by
  have hsplit : Text.splitOnce ':' (p ++ ":" ++ mode) = some (p, mode) :=
    Text.splitOnce_eq_some_iff.mpr ⟨rfl, hp⟩
  rw [parse, hsplit]

/-- A path with a colon is cut short at the first one, and its overlay is written. -/
theorem parse_of_colon {before : String} (hbefore : ':' ∉ before.toList) (after mode : String) :
    parse (before ++ ":" ++ after ++ ":" ++ mode) = ⟨⟨before⟩, true⟩ := by
  have hrest : after ++ ":" ++ mode ≠ "ro" := by
    intro hro
    have hcolon : ':' ∈ (after ++ ":" ++ mode).toList := by simp
    rw [hro] at hcolon
    exact absurd hcolon (by decide)
  have hparse := parse_of_not_mem hbefore (after ++ ":" ++ mode)
  rw [bne_iff_ne.mpr hrest] at hparse
  rw [← hparse]
  simp only [String.append_assoc]

/-- A path either holds no colon or has a first one. -/
theorem exists_first_colon {p : String} (hp : ':' ∈ p.toList) :
    ∃ before after, p = before ++ ":" ++ after ∧ ':' ∉ before.toList := by
  cases hsplit : Text.splitOnce ':' p with
  | none =>
      have hnot : ':' ∉ p.toList := by
        rw [← Text.cutAt_eq_none_iff]
        simpa [Text.splitOnce] using hsplit
      exact absurd hp hnot
  | some parts =>
      obtain ⟨htext, hfirst⟩ := Text.splitOnce_eq_some_iff.mp hsplit
      exact ⟨parts.1, parts.2, htext, hfirst⟩

/-- A request is understood as it is meant exactly if its path holds no colon. -/
theorem parse_mode_iff (p : String) {mode : String} {writable : Bool}
    (hmode : (mode != "ro") = writable) :
    parse (p ++ ":" ++ mode) = ⟨⟨p⟩, writable⟩ ↔ ':' ∉ p.toList := by
  constructor
  · intro hparse hcolon
    obtain ⟨before, after, rfl, hbefore⟩ := exists_first_colon hcolon
    rw [parse_of_colon hbefore] at hparse
    have hlength := congrArg (fun r => r.path.text.length) hparse
    simp only [String.length_append, show ":".length = 1 from rfl] at hlength
    omega
  · intro hp
    rw [parse_of_not_mem hp, hmode]

end OverlayRequest

namespace Launcher

variable {l : Launcher} {c : LaunchConfig} {h h' : Host} {r : ReadyLaunch}

/-- In an overlay layer the overlay images are those of the request. -/
theorem overlayImages_of_layer (hfresh : c.instanceJoin = none)
    (hrun : (l.prepare c).perform h = (.ok r, h')) (hlayer : r.config.sessionLayer = .overlay) :
    r.config.overlayImages = c.overlayImages := by
  obtain ⟨_, _, _, choice, -, -, hchoice, hchosen, -, hoverlays⟩ := fresh_layer hfresh hrun
  have hkept := LayerChoice.keeps_images_of_overlay hchoice (hchosen.symm.trans hlayer)
  rw [hoverlays, hkept]
  rfl

/-- A request that ends in `:ro` is one to read the path before that, and one that ends in
`:rw` is one to write it, if and only if the path holds no colon; with a colon it is a
request to write what the path before the first colon leads to.  So in every launch with an
overlay layer, an overlay that is asked for with `:ro` is opened from exactly its path and
is not written, if the path holds no colon.  With a colon it is opened from the shorter
path, and it is written if nothing stands in the way. -/
theorem overlay_mode_kept_iff (p : String) :
    (OverlayRequest.parse (p ++ ":ro") = ⟨⟨p⟩, false⟩ ↔ ':' ∉ p.toList) ∧
      (OverlayRequest.parse (p ++ ":rw") = ⟨⟨p⟩, true⟩ ↔ ':' ∉ p.toList) ∧
      (∀ before after mode : String, p = before ++ ":" ++ after → ':' ∉ before.toList →
        OverlayRequest.parse (p ++ ":" ++ mode) = ⟨⟨before⟩, true⟩) ∧
      ∀ (l : Launcher) (c : LaunchConfig) (h h' : Host) (r : ReadyLaunch),
        c.instanceJoin = none → (l.prepare c).perform h = (.ok r, h') →
        r.config.sessionLayer = .overlay →
        ∃ files, l.loadPolicy c h = .ok files ∧
          List.Forall₂ (fun spec image => spec = p ++ ":ro" →
              (':' ∉ p.toList →
                Image.OpenedFor files.policy l.inspect h .overlay ⟨p⟩ false image ∧
                  image.writable = false) ∧
                ∀ before after, p = before ++ ":" ++ after → ':' ∉ before.toList →
                  Image.OpenedFor files.policy l.inspect h .overlay ⟨before⟩ true image ∧
                    ∃ h₁, h₁.lasting = h.lasting ∧
                      (image.writable = true ↔ image.MayBeWritten h₁))
            c.overlayImages (r.images.filter fun image => image.usage = .overlay) := by
  have hread : p ++ ":ro" = p ++ ":" ++ "ro" := by
    rw [String.append_assoc]
    rfl
  have hwrite : p ++ ":rw" = p ++ ":" ++ "rw" := by
    rw [String.append_assoc]
    rfl
  refine ⟨?_, ?_, ?_, ?_⟩
  · rw [hread]
    exact OverlayRequest.parse_mode_iff p (by decide)
  · rw [hwrite]
    exact OverlayRequest.parse_mode_iff p (by decide)
  · rintro before after mode rfl hbefore
    exact OverlayRequest.parse_of_colon hbefore after mode
  · intro l c h h' r hfresh hrun hlayer
    obtain ⟨files, hfiles, -, hopened⟩ := overlays_of_layer hfresh hrun hlayer
    refine ⟨files, hfiles, ?_⟩
    rw [← overlayImages_of_layer hfresh hrun hlayer]
    refine (List.forall₂_map_left_iff.mp hopened).imp ?_
    rintro spec image himage rfl
    rw [hread] at himage
    constructor
    · intro hp
      rw [OverlayRequest.parse_of_not_mem hp] at himage
      exact ⟨himage, himage.not_writable_of_reading⟩
    · rintro before after rfl hbefore
      rw [OverlayRequest.parse_of_colon hbefore] at himage
      obtain ⟨h₁, hlast, hiff⟩ := himage.writable_iff
      exact ⟨himage, h₁, hlast, hiff.trans (by simp)⟩

/-! ## Two overlays that are to be read -/

/-- A host whose kernel knows overlays, with two directories of which the name of one is that
of the other up to a colon. -/
def versionsHost : Host :=
  Host.plain ⟨1000, 1000, 1000, []⟩
    [["etc"], ["etc", "stagehand"], ["image"], ["proc"], ["base"], ["data"], ["data:v1"]]
    [(["etc", "stagehand", "stagehand.yaml"], ""),
      (["proc", "filesystems"], "nodev\toverlay\n")]

/-- A request to read two overlays. -/
def versionedOverlay : String :=
  "\x7b\"image\":\"/image\",\"process\":\x7b\"args\":[\"sh\"]\x7d," ++
    "\"overlayImages\":[\"/base:ro\",\"/data:v1:ro\"]\x7d"

theorem prepare_versionedOverlay :
    ∃ c r h', LaunchConfig.parse versionedOverlay = .ok c ∧ c.instanceJoin = none ∧
      c.overlayImages = ["/base:ro", "/data:v1:ro"] ∧
      ((onHost versionsHost false).prepare c).perform versionsHost = (.ok r, h') ∧
      r.config.sessionLayer = .overlay ∧
      (r.images.filter fun image => image.usage = .overlay).map
          (fun i => (i.path, i.writable)) =
        [(⟨"/base"⟩, false), (⟨"/data"⟩, true)] := by
  obtain ⟨c, hparse, hc⟩ : ∃ c, LaunchConfig.parse versionedOverlay = .ok c ∧
      (decide (c.instanceJoin = none ∧ c.overlayImages = ["/base:ro", "/data:v1:ro"]),
        (((onHost versionsHost false).prepare c).perform versionsHost).1.toOption.map fun r =>
          (r.config.sessionLayer, (r.images.filter fun image => image.usage = .overlay).map
            fun i => (i.path, i.writable))) =
      (true, some (.overlay, [(⟨"/base"⟩, false), (⟨"/data"⟩, true)])) :=
    Error.exists_ok_of_map (by decide +kernel)
  obtain ⟨hasked, hready⟩ := Prod.mk.inj hc
  obtain ⟨hfresh, hoverlays⟩ := of_decide_eq_true hasked
  obtain ⟨r, h', hrun, hr⟩ := Action.exists_perform_ok hready
  obtain ⟨hlayer, himages⟩ := Prod.mk.inj hr
  exact ⟨c, r, h', hparse, hfresh, hoverlays, hrun, hlayer, himages⟩

/-- The first overlay is read as it was asked for; the second one is not the one that was
asked for, and was opened for writing. -/
theorem overlay_mode_kept_iff_versionedOverlay :
    ∃ c r h' files base data, LaunchConfig.parse versionedOverlay = .ok c ∧
      c.instanceJoin = none ∧
      ((onHost versionsHost false).prepare c).perform versionsHost = (.ok r, h') ∧
      r.config.sessionLayer = .overlay ∧
      (onHost versionsHost false).loadPolicy c versionsHost = .ok files ∧
      (r.images.filter fun image => image.usage = .overlay) = [base, data] ∧
      Image.OpenedFor files.policy (onHost versionsHost false).inspect versionsHost .overlay
        ⟨"/base"⟩ false base ∧ base.writable = false ∧
      Image.OpenedFor files.policy (onHost versionsHost false).inspect versionsHost .overlay
        ⟨"/data"⟩ true data := by
  obtain ⟨c, r, h', hparse, hfresh, hasked, hrun, hlayer, -⟩ := prepare_versionedOverlay
  obtain ⟨-, -, -, hplain⟩ := overlay_mode_kept_iff "/base"
  obtain ⟨-, -, -, hcolon⟩ := overlay_mode_kept_iff "/data:v1"
  obtain ⟨files, hfiles, hopened⟩ := hplain _ _ _ _ _ hfresh hrun hlayer
  obtain ⟨files', hfiles', hopened'⟩ := hcolon _ _ _ _ _ hfresh hrun hlayer
  obtain rfl : files = files' := Except.ok.inj (hfiles.symm.trans hfiles')
  rw [hasked] at hopened hopened'
  obtain ⟨base, _, hbase, hrest, hmore⟩ := List.forall₂_cons_left_iff.mp hopened
  obtain ⟨data, _, -, hnone, rfl⟩ := List.forall₂_cons_left_iff.mp hrest
  obtain rfl := List.forall₂_nil_left_iff.mp hnone
  rw [hmore, List.forall₂_cons, List.forall₂_cons] at hopened'
  obtain ⟨hread, hclosed⟩ := (hbase (by decide)).1 (by decide)
  obtain ⟨hwritten, -⟩ := (hopened'.2.1 (by decide)).2 "/data" "v1" (by decide) (by decide)
  exact ⟨c, r, h', files, base, data, hparse, hfresh, hrun, hlayer, hfiles, hmore, hread, hclosed,
    hwritten⟩

/-- A request to read a directory with a colon in its name opens another one, for writing. -/
theorem reading_request_written :
    OverlayRequest.parse "/data:v1:ro" ≠ ⟨⟨"/data:v1"⟩, false⟩ ∧
      ∃ c r h', LaunchConfig.parse versionedOverlay = .ok c ∧ c.instanceJoin = none ∧
        c.overlayImages = ["/base:ro", "/data:v1:ro"] ∧
        ((onHost versionsHost false).prepare c).perform versionsHost = (.ok r, h') ∧
        r.config.sessionLayer = .overlay ∧
        (r.images.filter fun image => image.usage = .overlay).map
            (fun i => (i.path, i.writable)) =
          [(⟨"/base"⟩, false), (⟨"/data"⟩, true)] :=
  ⟨by decide +kernel, prepare_versionedOverlay⟩

end Launcher
end ContainerLaunch
