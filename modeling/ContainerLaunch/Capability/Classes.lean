import ContainerLaunch.Capability.Names
import ContainerLaunch.Json.Codec
/-!
# The five capability classes

A process carries five sets of capabilities.  They are requested as lists of
names and handed on as words; `uniform` puts one set into all five.
-/

namespace ContainerLaunch

/-- The five capability classes of a process, by name. -/
structure CapabilityClasses where
  permitted : List String
  effective : List String
  inheritable : List String
  bounding : List String
  ambient : List String
  deriving DecidableEq, Repr, Inhabited

/-- The five capability classes of a process, as words. -/
structure CapabilityWords where
  permitted : UInt64
  effective : UInt64
  inheritable : UInt64
  bounding : UInt64
  ambient : UInt64
  deriving DecidableEq, Repr, Inhabited

namespace CapabilityClasses

def none : CapabilityClasses := ⟨[], [], [], [], []⟩

def uniform (s : CapabilitySet) : CapabilityClasses :=
  ⟨s.names, s.names, s.names, s.names, s.names⟩

/-- The words of the classes; names that stand for nothing do not count. -/
def words (c : CapabilityClasses) : CapabilityWords where
  permitted := (Capability.named c.permitted).bits
  effective := (Capability.named c.effective).bits
  inheritable := (Capability.named c.inheritable).bits
  bounding := (Capability.named c.bounding).bits
  ambient := (Capability.named c.ambient).bits

def schema : Json.Schema CapabilityClasses where
  fields := [
    .plain "permitted" (.list .text) permitted fun v c => { c with permitted := v },
    .plain "effective" (.list .text) effective fun v c => { c with effective := v },
    .plain "inheritable" (.list .text) inheritable fun v c => { c with inheritable := v },
    .plain "bounding" (.list .text) bounding fun v c => { c with bounding := v },
    .plain "ambient" (.list .text) ambient fun v c => { c with ambient := v }]
  initial := none

/-- The masks of a flattened set are one word. -/
theorem words_uniform (s : CapabilitySet) :
    (uniform s).words =
      let w := (Capability.named s.names).bits
      ⟨w, w, w, w, w⟩ := rfl

end CapabilityClasses

namespace CapabilityWords

def schema : Json.Schema CapabilityWords where
  fields := [
    .needed "permitted" .u64 permitted fun v c => { c with permitted := v },
    .needed "effective" .u64 effective fun v c => { c with effective := v },
    .needed "inheritable" .u64 inheritable fun v c => { c with inheritable := v },
    .needed "bounding" .u64 bounding fun v c => { c with bounding := v },
    .needed "ambient" .u64 ambient fun v c => { c with ambient := v }]
  initial := ⟨0, 0, 0, 0, 0⟩

end CapabilityWords
end ContainerLaunch
