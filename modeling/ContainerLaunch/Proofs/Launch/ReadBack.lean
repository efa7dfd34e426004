import ContainerLaunch.Launch.Configuration
import ContainerLaunch.Proofs.Json.Compact
import ContainerLaunch.Proofs.Json.Records
import ContainerLaunch.Proofs.Text
/-!
# Configurations are read back

The settings of a process, the configuration and every record in it are written as JSON
that is read as what it was.  The one exception is the seccomp profile, whose shape is
not known beforehand: where it is `null` it is taken for a missing one, and where it is
nested too deep the whole configuration is not read.
-/

namespace ContainerLaunch

open Json Json.FieldOf

/-! ## Choices -/

instance : NamespaceKind.codec.Lossless :=
  Codec.choice_lossless (by intro k; cases k <;> rfl)

instance : ImageFormat.codec.Lossless :=
  Codec.choice_lossless (by intro f; cases f <;> rfl)

instance : ImageRole.codec.Lossless :=
  Codec.choice_lossless (by intro r; cases r <;> rfl)

instance : SessionLayer.codec.Lossless :=
  Codec.choice_lossless (by intro l; cases l <;> rfl)

/-! ## Records -/

instance : CapabilityClasses.schema.codec.Lossless := by
  refine Schema.lossless (by decide) (fun x => ?_) fun x => ?_
  · simp only [CapabilityClasses.schema, copyAll_plain]
    rfl
  · simp [CapabilityClasses.schema, holds_plain]

instance : BindMount.schema.codec.Lossless := by
  refine Schema.lossless (by decide) (fun x => ?_) fun x => ?_
  · simp only [BindMount.schema, copyAll_plain, copyAll_optional]
    rfl
  · simp [BindMount.schema, holds_plain, holds_optional]

instance : FuseMount.schema.codec.Lossless := by
  refine Schema.lossless (by decide) (fun x => ?_) fun x => ?_
  · simp only [FuseMount.schema, copyAll_plain, copyAll_needed, copyAll_optional]
    rfl
  · simp [FuseMount.schema, holds_plain, holds_needed, holds_optional]

instance : Namespace.schema.codec.Lossless := by
  refine Schema.lossless (by decide) (fun x => ?_) fun x => ?_
  · simp only [Namespace.schema, Namespace.create, copyAll_needed, copyAll_optional]
    rfl
  · simp [Namespace.schema, holds_needed, holds_optional]

instance : HeldImage.schema.codec.Lossless := by
  refine Schema.lossless (by decide) (fun x => ?_) fun x => ?_
  · simp only [HeldImage.schema, copyAll_needed]
    rfl
  · simp [HeldImage.schema, holds_needed]

instance : IdMapLine.schema.codec.Lossless := by
  refine Schema.lossless (by decide) (fun x => ?_) fun x => ?_
  · simp only [IdMapLine.schema, copyAll_needed]
    rfl
  · simp [IdMapLine.schema, holds_needed]

instance : NamespaceList.codec.Lossless where
  faithful s := by
    have hitems := (inferInstance : (Codec.list Namespace.schema.codec).Lossless).faithful s.items
    simp only [NamespaceList.codec, hitems, Option.map_some]
  written s := (inferInstance : (Codec.list Namespace.schema.codec).Lossless).written s.items
  ne_null s := (inferInstance : (Codec.list Namespace.schema.codec).Lossless).ne_null s.items

theorem ContainerUser.keyNumber_ofUInt32 (n : UInt32) :
    keyNumber (Text.ofUInt32 n) = some n := by
  have htext : (Text.ofUInt32 n).toList = Nat.toDigits 10 n.toNat := String.toList_ofList
  have hlt : n.toNat < UInt32.size := n.toNat_lt
  rw [keyNumber, htext]
  split
  · next hzero => exact absurd hzero (Text.toDigits_ne_zero_cons n.toNat _ _)
  · simp [Text.natOfDigits_toDigits, Text.below, hlt]

instance : ContainerUser.groupsCodec.Lossless where
  faithful m := by
    have hentries : (m.entries.map fun e => (Text.ofUInt32 e.1, Json.string e.2)).mapM
        (fun f => do
          let gid ← ContainerUser.keyNumber f.1
          let name ← Codec.text.read f.2
          some (gid, name)) = some m.entries :=
      mapM_map_eq_some
        (fun e => by simp [ContainerUser.keyNumber_ofUInt32, Codec.text]) m.entries
    exact (congrArg (· >>= fun entries => some (SortedMap.ofList entries)) hentries).trans
      (congrArg some (SortedMap.ofList_entries m))
  written m := by
    refine .object fun f hf => ?_
    obtain ⟨e, -, rfl⟩ := List.mem_map.mp hf
    exact .string e.2
  ne_null := by rintro m ⟨⟩

instance : ContainerUser.schema.codec.Lossless := by
  refine Schema.lossless (by decide) (fun x => ?_) fun x => ?_
  · simp only [ContainerUser.schema, copyAll_needed]
    rfl
  · simp [ContainerUser.schema, holds_needed]

/-! ## The process -/

namespace ProcessSettings

variable {p : ProcessSettings}

/-- The seccomp profile, if there is one, is a value of unknown shape as it is read. -/
def HasValue (p : ProcessSettings) : Prop :=
  ∀ profile, p.seccomp = some profile → profile.IsValue

/-- The settings of a process as they come back, if they do: a profile that is `null` is
taken for a missing one, and one that is nested too deep makes them unreadable. -/
def readBack (p : ProcessSettings) : Option ProcessSettings :=
  match p.seccomp with
  | none => some p
  | some .null => some { p with seccomp := none }
  | some profile => if profile.depth ≤ 125 then some p else none

theorem readBack_eq_self_iff :
    p.readBack = some p ↔
      ∀ profile, p.seccomp = some profile → profile ≠ .null ∧ profile.depth ≤ 125 := by
  unfold readBack
  split
  · next hnone => simp [hnone]
  · next hnull =>
    have hne : { p with seccomp := none } ≠ p := fun h => by
      rw [← h] at hnull
      cases hnull
    simp [hnull, hne]
  · next profile hne hsome =>
    have hne : profile ≠ .null := hne
    simp [hsome, hne]

theorem readBack_null (hnull : p.seccomp = some .null) :
    p.readBack = some { p with seccomp := none } := by
  rw [readBack, hnull]

theorem readBack_deep {profile : Json} (hprofile : p.seccomp = some profile)
    (hdepth : 125 < profile.depth) : p.readBack = none := by
  unfold readBack
  split
  · next hnone => simp [hnone] at hprofile
  · next hnull =>
    obtain rfl : .null = profile := Option.some.inj (hnull.symm.trans hprofile)
    cases hdepth
  · next hsome =>
    obtain rfl := Option.some.inj (hsome.symm.trans hprofile)
    rw [if_neg (Nat.not_le.mpr hdepth)]

theorem read_write (hvalue : p.HasValue) :
    schema.read (schema.write p) = p.readBack := by
  rw [Schema.read_write (by decide)]
  simp only [schema, default, copyAll_plain, copyAll_optional]
  rw [copyAll_anything hvalue, readBack]
  obtain ⟨args, env, capabilities, noNewPrivileges, selinuxLabel, apparmorProfile, seccomp⟩ := p
  cases seccomp with
  | none => rfl
  | some profile => cases profile <;> rfl

theorem written_write (hvalue : p.HasValue) :
    (schema.write p).Written := by
  have hprofile : ∀ profile, p.seccomp = some profile → ((Codec.anything 125).write profile).Written :=
    fun profile hprofile => (hvalue profile hprofile).written
  apply Schema.written_write
  simpa [schema, holds_plain, holds_optional, holds_optional_iff] using hprofile

theorem fields_keep_hasValue : ∀ f ∈ schema.fields, f.Keeps HasValue := by
  have hprofile : ∀ j (profile : Option Json) (q : ProcessSettings), j.Found →
      (Codec.anything 125).nullable.read j = some profile → q.HasValue →
      ({ q with seccomp := profile } : ProcessSettings).HasValue := by
    rintro j profile q hj hread - _ ⟨⟩
    exact Codec.isValue_of_nullable_read hj hread
  simp only [schema, List.forall_mem_cons]
  repeat' apply And.intro
  -- The other fields leave the profile as it is.
  all_goals try first
    | exact keeps_plain fun _ _ hq => hq
    | exact keeps_optional fun _ _ hq => hq
  · exact keeps_optional_of hprofile
  · simp

/-- The profile of settings that are read from a text is a value as it is read. -/
theorem hasValue_of_read {j : Json} (hj : j.Found) (hread : schema.read j = some p) :
    p.HasValue :=
  Schema.read_keeps (by simp [HasValue, schema, default]) fields_keep_hasValue hj hread

end ProcessSettings

/-! ## The configuration -/

namespace LaunchConfig

variable {c : LaunchConfig}

/-- Everything but the process comes back. -/
theorem read_write (c : LaunchConfig) :
    schema.read (schema.write c) =
      (ProcessSettings.schema.read (ProcessSettings.schema.write c.process)).map
        fun p => { c with process := p } := by
  rw [Schema.read_write (by decide)]
  simp only [LaunchConfig.schema, LaunchConfig.default, copyAll_plain, copyAll_optional]
  rw [copyAll_plain_eq]
  cases hread : ProcessSettings.schema.codec.read (ProcessSettings.schema.codec.write c.process) with
  | none =>
    have hread : ProcessSettings.schema.read (ProcessSettings.schema.write c.process) = none := hread
    rw [hread]
    rfl
  | some p =>
    have hread : ProcessSettings.schema.read (ProcessSettings.schema.write c.process) = some p := hread
    simp only [hread, Option.bind_some, copyAll_plain, copyAll_optional]
    rfl

theorem written_write (hvalue : c.process.HasValue) :
    (schema.write c).Written := by
  have hprocess : (ProcessSettings.schema.codec.write c.process).Written :=
    ProcessSettings.written_write hvalue
  apply Schema.written_write
  simpa [schema, holds_plain, holds_optional, holds_plain_iff] using hprocess

/-- The configuration as the next stage reads it from a payload. -/
def ofPayload (payload : ByteArray) : Except Error LaunchConfig :=
  match Text.readText payload with
  | some text => parse text
  | none => .error (.malformed "not a launch configuration")

/-- What the next stage reads of a configuration that was written for it. -/
theorem ofPayload_payload (hvalue : c.process.HasValue) :
    ofPayload (Text.octets c.payload) =
      match c.process.readBack with
      | some p => .ok { c with process := p }
      | none => .error (.malformed "not a launch configuration") := by
  have hparse : Json.parse c.payload = some (schema.write c) := (written_write hvalue).parse_compact
  rw [ofPayload, Text.readText_octets]
  simp only [parse, hparse, Option.bind_eq_bind, Option.bind_some, read_write,
    ProcessSettings.read_write hvalue]
  cases c.process.readBack <;> rfl

theorem fields_keep_hasValue : ∀ f ∈ schema.fields, f.Keeps fun c => c.process.HasValue := by
  simp only [schema, List.forall_mem_cons]
  repeat' apply And.intro
  -- The other fields leave the process as it is.
  all_goals try first
    | exact keeps_plain fun _ _ hc => hc
    | exact keeps_optional fun _ _ hc => hc
  · exact keeps_plain_of fun j p c hj hread _ => ProcessSettings.hasValue_of_read hj hread
  · simp

theorem hasValue_of_read {j : Json} (hj : j.Found) (hread : schema.read j = some c) :
    c.process.HasValue := by
  have hinitial : schema.initial.process.HasValue := by
    simp [ProcessSettings.HasValue, schema, default, ProcessSettings.default]
  exact Schema.read_keeps (P := fun c => c.process.HasValue) hinitial fields_keep_hasValue hj hread

/-- The profile of a configuration that is read from a text is a value as it is read. -/
theorem hasValue_of_parse {text : String} (hparse : parse text = .ok c) : c.process.HasValue := by
  unfold parse at hparse
  split at hparse
  · next config hread =>
    cases hparse
    obtain ⟨j, hj, hread⟩ := Option.bind_eq_some_iff.mp hread
    exact hasValue_of_read (Json.found_of_parse hj) hread
  · cases hparse

end LaunchConfig
end ContainerLaunch
