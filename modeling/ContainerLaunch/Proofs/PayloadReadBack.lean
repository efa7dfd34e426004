import ContainerLaunch.Proofs.JoinedInstance
import ContainerLaunch.Proofs.Launch.ReadBack
/-!
# What the next stage reads back

The payload of a launch that is ready is read by the next stage as the configuration that
was prepared, unless for its seccomp profile.  A profile may come from the request, from a
file that the request names, or from the record of an instance; whatever its source it is
a value as it is read, but not always one that can be read back.
-/

namespace ContainerLaunch

namespace InstanceRecord

variable {r : InstanceRecord}

theorem fields_keep_isValue : ∀ f ∈ schema.fields, f.Keeps fun r => r.config.IsValue := by
  have hconfig : ∀ j config (r : InstanceRecord), j.Found →
      (Json.Codec.anything 126).read j = some config → r.config.IsValue → config.IsValue :=
    fun j config r hj hread _ => hj.isValue_of_settled hread
  simp only [schema, List.forall_mem_cons]
  repeat' apply And.intro
  -- The other fields leave the configuration as it is.
  all_goals try first
    | exact Json.FieldOf.keeps_plain fun _ _ hr => hr
    | exact Json.FieldOf.keeps_needed fun _ _ hr => hr
    | exact Json.FieldOf.keeps_optional fun _ _ hr => hr
  · exact Json.FieldOf.keeps_plain_of hconfig
  · simp

theorem isValue_of_parse {text : String} (hparse : parse text = .ok r) : r.config.IsValue := by
  unfold parse at hparse
  split at hparse
  · next record hread =>
    cases hparse
    obtain ⟨j, hj, hread⟩ := Option.bind_eq_some_iff.mp hread
    exact Json.Schema.read_keeps (P := fun r => r.config.IsValue) ⟨.null, rfl⟩
      fields_keep_isValue (Json.found_of_parse hj) hread
  · cases hparse

theorem isValue_of_load {h : Host} {p : Path} (hload : load h p = .ok r) : r.config.IsValue := by
  unfold load at hload
  split at hload
  · cases hload
  · split at hload
    · exact isValue_of_parse hload
    · cases hload

end InstanceRecord

/-! ## Where a profile comes from -/

namespace Draft

variable {d : Draft} {l : Launcher} {files : AdminFiles} {h : Host}

theorem isValue_of_seccompProfile {p : Path} {profile : Json}
    (hread : seccompProfile h p = .ok profile) : profile.IsValue := by
  unfold seccompProfile at hread
  split at hread
  · cases hread
  · split at hread
    · next j hfound =>
      cases hread
      obtain ⟨found, hparse, hsettled⟩ := Option.bind_eq_some_iff.mp hfound
      exact (Json.found_of_parse hparse).isValue_of_settled hsettled
    · cases hread

theorem hasValue_of_instanceConfig {record : InstanceRecord} {original : LaunchConfig}
    (hvalue : record.config.IsValue) (hread : instanceConfig record = .ok original) :
    original.process.HasValue := by
  unfold instanceConfig at hread
  split at hread
  · next config hconfig =>
    cases hread
    exact LaunchConfig.hasValue_of_read hvalue.found hconfig
  · cases hread

theorem seccompOption_eq_some {c : LaunchConfig} {profile : Json} :
    seccompOption h c = .ok (some profile) ↔
      ∃ file, c.securityOption "seccomp" = some file ∧
        seccompProfile h ⟨file⟩ = .ok profile := by
  unfold seccompOption
  cases c.securityOption "seccomp" with
  | none => simp
  | some file =>
      refine Error.map_eq_ok.trans ?_
      simp

/-- The profile of a new container is the one that was read for it, and otherwise that of
its request. -/
theorem freshWith_seccomp (d : Draft) (l : Launcher) (files : AdminFiles) (targetIds : Bool)
    (maps : Option SubordinateMaps) (seccomp : Option Json) :
    (d.freshWith l files targetIds maps seccomp).config.process.seccomp =
      seccomp.or d.config.process.seccomp := by
  simp only [freshWith, secured, withNamespacePlan]
  rw [withOwnMaps_eq]
  cases maps <;> rfl

end Draft

namespace Launcher

variable {l : Launcher} {c : LaunchConfig} {h h' : Host} {r : ReadyLaunch} {profile : Json}

/-- A profile is the request's own, or it is read from the file that the request names, or
the record of the instance has it. -/
inductive ProfileOf (l : Launcher) (c : LaunchConfig) (h : Host) (profile : Json) : Prop
  | requested (hrequest : c.process.seccomp = some profile)
  | named {h₁ : Host} {file : String} (hlast : h₁.lasting = h.lasting)
      (hoption : c.securityOption "seccomp" = some file)
      (hread : Draft.seccompProfile h₁ ⟨file⟩ = .ok profile)
  | recorded {record : InstanceRecord} {original : LaunchConfig}
      (hload : InstanceRecord.load h (Draft.recordPath h l.facts.caller c) = .ok record)
      (hconfig : Draft.instanceConfig record = .ok original)
      (hrecord : original.process.seccomp = some profile)

/-- Whatever its source, a profile is a value as it is read. -/
theorem ProfileOf.isValue (hvalue : c.process.HasValue) (hprofile : ProfileOf l c h profile) :
    profile.IsValue := by
  cases hprofile with
  | requested hrequest => exact hvalue profile hrequest
  | named _ _ hread => exact Draft.isValue_of_seccompProfile hread
  | recorded hload hconfig hrecord =>
      have hrecorded := InstanceRecord.isValue_of_load hload
      exact Draft.hasValue_of_instanceConfig hrecorded hconfig profile hrecord

theorem securityOption_opening (key : String) :
    (opening l c h).config.securityOption key = c.securityOption key := by
  unfold LaunchConfig.securityOption
  rw [opening_config]

theorem profileOf_fresh (hfresh : c.instanceJoin = none)
    (hrun : (l.prepare c).perform h = (.ok r, h'))
    (hprofile : r.config.process.seccomp = some profile) : ProfileOf l c h profile := by
  obtain ⟨files, user, d₁, h₁, d₂, h₂, pinned, handles, ends, -, hmade, himages, rfl⟩ :=
    prepare_fresh_ok hfresh hrun
  obtain ⟨-, -, maps, seccomp, -, hoption, rfl, -⟩ := Draft.fresh_ok.mp hmade
  obtain ⟨hprocess, -, -⟩ := Draft.process_withImages himages
  have hfinal : d₂.config.process.seccomp = some profile := hprofile
  rw [hprocess, Draft.freshWith_seccomp] at hfinal
  cases hseccomp : seccomp with
  | none =>
      rw [hseccomp, Option.none_or] at hfinal
      have hrequest : (opening l c h).config.process.seccomp = some profile := hfinal
      rw [opening_config] at hrequest
      exact .requested hrequest
  | some found =>
      rw [hseccomp] at hoption hfinal
      obtain rfl : found = profile := Option.some.inj hfinal
      obtain ⟨file, hfile, hread⟩ := Draft.seccompOption_eq_some.mp hoption
      have hsame := securityOption_opening (l := l) (c := c) (h := h) "seccomp"
      exact .named (lasting_opened l c h) (hsame.symm.trans hfile) hread

theorem profileOf_join (hjoin : c.instanceJoin.isSome = true)
    (hrun : (l.prepare c).perform h = (.ok r, h'))
    (hprofile : r.config.process.seccomp = some profile) : ProfileOf l c h profile := by
  obtain ⟨files, record, original, d₁, h₁, handles, ends, -, htake, rfl⟩ :=
    prepare_join_ok hjoin hrun
  obtain ⟨enforced, directory, h₂, hexamined, -, -, hconfined⟩ := Draft.takeOver_settles htake
  obtain ⟨h₃, hlast, hsettles⟩ := hconfined.seccomp
  have hfinal : d₁.config.process.seccomp = some profile := hprofile
  rw [hfinal] at hsettles
  rcases hsettles with ⟨file, found, hfile, hread, hfound⟩ | ⟨-, hrecord⟩
  · obtain rfl : profile = found := Option.some.inj hfound
    have hoption := (LaunchConfig.securityOption_eq_some_iff (by decide)).mpr hfile
    rw [securityOption_opening] at hoption
    have hquiet := (Draft.quiet_takeOver _ _ _).lasting_eq htake
    exact .named (hlast.trans (hquiet.trans (lasting_opened l c h))) hoption hread
  · have hload := hexamined.record_loaded
    rw [loadRecord_opening] at hload
    exact .recorded hload hexamined.config_read hrecord.symm

/-- The profile of a launch that is ready is a value as it is read. -/
theorem hasValue_of_prepare (hvalue : c.process.HasValue)
    (hrun : (l.prepare c).perform h = (.ok r, h')) : r.config.process.HasValue := by
  intro profile hprofile
  cases hjoin : c.instanceJoin with
  | none => exact (profileOf_fresh hjoin hrun hprofile).isValue hvalue
  | some name =>
      have hsome : c.instanceJoin.isSome = true := by rw [hjoin]; rfl
      exact (profileOf_join hsome hrun hprofile).isValue hvalue

/-! ## What is read back -/

/-- The next stage reads back the configuration that was prepared if and only if its
seccomp profile, where it has one, is not `null` and is not nested too deep.  A `null` is
lost and nothing else is; with a profile that is nested too deep nothing is read. -/
theorem payload_read_back_iff (hvalue : c.process.HasValue)
    (hrun : (l.prepare c).perform h = (.ok r, h')) :
    (LaunchConfig.ofPayload r.payload = .ok r.config ↔
        ∀ profile, r.config.process.seccomp = some profile →
          profile ≠ .null ∧ profile.depth ≤ 125) ∧
      (r.config.process.seccomp = some .null →
        LaunchConfig.ofPayload r.payload =
          .ok { r.config with process := { r.config.process with seccomp := none } }) ∧
      ∀ profile, r.config.process.seccomp = some profile → 125 < profile.depth →
        LaunchConfig.ofPayload r.payload =
          .error (.malformed "not a launch configuration") := by
  have hread := LaunchConfig.ofPayload_payload (hasValue_of_prepare hvalue hrun)
  rw [ReadyLaunch.payload, hread]
  refine ⟨?_, ?_, ?_⟩
  · rw [← ProcessSettings.readBack_eq_self_iff]
    cases r.config.process.readBack with
    | none => simp
    | some p =>
        simp only [Except.ok.injEq, Option.some.injEq]
        constructor
        · exact fun hconfig => congrArg LaunchConfig.process hconfig
        · rintro rfl
          rfl
  · intro hnull
    rw [ProcessSettings.readBack_null hnull]
  · intro profile hprofile hdepth
    rw [ProcessSettings.readBack_deep hprofile hdepth]

/-! ## A profile that is read back and one that is lost -/

/-- A host with a sandbox and a seccomp profile. -/
def profileHost (profile : String) : Host :=
  Host.plain ⟨1000, 1000, 1000, []⟩ [["etc"], ["etc", "stagehand"], ["image"]]
    [(["etc", "stagehand", "stagehand.yaml"], ""), (["profile.json"], profile)]

/-- A request that names the profile. -/
def withProfile : String :=
  "\x7b\"image\":\"/image\",\"process\":\x7b\"args\":[\"sh\"]\x7d," ++
    "\"security\":[\"seccomp:/profile.json\"]\x7d"

/-- A profile that lets everything pass. -/
def allowAll : String :=
  "\x7b\"defaultAction\":\"SCMP_ACT_ALLOW\"\x7d"

theorem prepare_allowAll :
    ∃ c r h' profile, LaunchConfig.parse withProfile = .ok c ∧
      ((onHost (profileHost allowAll) false).prepare c).perform (profileHost allowAll) =
        (.ok r, h') ∧
      r.config.process.seccomp = some profile ∧ profile.compact = allowAll ∧
      profile.depth = 1 := by
  obtain ⟨c, hparse, hready⟩ : ∃ c, LaunchConfig.parse withProfile = .ok c ∧
      (((onHost (profileHost allowAll) false).prepare c).perform
        (profileHost allowAll)).1.toOption.map
          (fun r => r.config.process.seccomp.map fun j => (j.compact, j.depth)) =
      some (some (allowAll, 1)) :=
    Error.exists_ok_of_map (by decide +kernel)
  obtain ⟨r, h', hrun, hr⟩ := Action.exists_perform_ok hready
  obtain ⟨profile, hprofile, hfound⟩ := Option.map_eq_some_iff.mp hr
  obtain ⟨htext, hdepth⟩ := Prod.mk.inj hfound
  exact ⟨c, r, h', profile, hparse, hrun, hprofile, htext, hdepth⟩

theorem payload_read_back_iff_allowAll :
    ∃ c r h' profile, LaunchConfig.parse withProfile = .ok c ∧
      ((onHost (profileHost allowAll) false).prepare c).perform (profileHost allowAll) =
        (.ok r, h') ∧
      r.config.process.seccomp = some profile ∧ profile.compact = allowAll ∧
      LaunchConfig.ofPayload r.payload = .ok r.config := by
  obtain ⟨c, r, h', profile, hparse, hrun, hprofile, htext, hdepth⟩ := prepare_allowAll
  have hread := payload_read_back_iff (LaunchConfig.hasValue_of_parse hparse) hrun
  refine ⟨c, r, h', profile, hparse, hrun, hprofile, htext, hread.1.mpr ?_⟩
  intro other hother
  obtain rfl := Option.some.inj (hprofile.symm.trans hother)
  refine ⟨?_, by omega⟩
  rintro rfl
  exact absurd htext (by decide)

/-- The profile `null` is part of the configuration that was prepared and is missing from
the one that is read back. -/
theorem null_profile_lost :
    ∃ c r h' config, LaunchConfig.parse withProfile = .ok c ∧
      ((onHost (profileHost "null") false).prepare c).perform (profileHost "null") =
        (.ok r, h') ∧
      LaunchConfig.ofPayload r.payload = .ok config ∧
      r.config.process.seccomp = some .null ∧ config.process.seccomp = none := by
  obtain ⟨c, hparse, hready⟩ : ∃ c, LaunchConfig.parse withProfile = .ok c ∧
      (((onHost (profileHost "null") false).prepare c).perform
        (profileHost "null")).1.toOption.map
          (fun r => r.config.process.seccomp.map Json.compact) =
      some (some "null") :=
    Error.exists_ok_of_map (by decide +kernel)
  obtain ⟨r, h', hrun, hr⟩ := Action.exists_perform_ok hready
  obtain ⟨profile, hprofile, htext⟩ := Option.map_eq_some_iff.mp hr
  have hvalue := hasValue_of_prepare (LaunchConfig.hasValue_of_parse hparse) hrun
  obtain rfl : profile = .null := (hvalue profile hprofile).written.eq_of_compact .null htext
  have hread := LaunchConfig.ofPayload_payload hvalue
  rw [ProcessSettings.readBack_null hprofile] at hread
  exact ⟨c, r, h', _, hparse, hrun, hread, hprofile, rfl⟩

end Launcher
end ContainerLaunch
