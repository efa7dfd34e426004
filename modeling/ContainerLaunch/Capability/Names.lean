import ContainerLaunch.Capability.Basic
/-!
# Lists of capability names

A list of names as a user or an administrator writes it.  An entry may hold
several names between commas; a name is taken in any case, with or without
`CAP_`, and white space around it does not count.  `ALL` stands for every
capability.  What is no name is kept apart, in order.
-/

namespace ContainerLaunch.Capability

/-- A name in its canonical spelling, whether or not it is known. -/
def canonicalSpelling (name : String) : String :=
  let name := Text.upper (Text.trim name)
  if (Text.stripStart "CAP_" name).isSome then name else "CAP_" ++ name

/-- What one name stands for. -/
inductive Token where
  | all
  | one (c : Capability)
  /-- No capability; the name without white space around it. -/
  | unknown (name : String)
  deriving DecidableEq, Repr

def token (name : String) : Token :=
  let spelled := canonicalSpelling name
  if spelled = "CAP_ALL" then .all
  else
    match ofName? spelled with
    | some c => .one c
    | none => .unknown (Text.trim name)

/-- The names of an entry: its pieces between commas that are not blank. -/
def namesIn (entry : String) : List String :=
  (Text.pieces ',' entry).filter fun piece => Text.trim piece != ""

/-- What the names of a list stand for, in order. -/
def tokens (entries : List String) : List Token :=
  (entries.flatMap namesIn).map token

/-- The capabilities that a name stands for. -/
def Token.set : Token → CapabilitySet
  | .all => .full
  | .one c => CapabilitySet.empty.insert c
  | .unknown _ => .empty

/-- The name, if it stands for nothing. -/
def Token.unknown? : Token → Option String
  | .unknown name => some name
  | _ => none

/-- The union of the sets of a list of names. -/
def unionOf (ts : List Token) : CapabilitySet :=
  ts.foldl (fun s t => s.union t.set) .empty

/-- The capabilities that a list of names stands for. -/
def named (entries : List String) : CapabilitySet :=
  unionOf (tokens entries)

/-- The names in a list that stand for nothing, in order. -/
def unknownIn (entries : List String) : List String :=
  (tokens entries).filterMap Token.unknown?

theorem tokens_append (a b : List String) : tokens (a ++ b) = tokens a ++ tokens b := by
  simp [tokens]

/-- A capability is named by a list exactly if one of its names stands for it. -/
theorem mem_named_iff {c : Capability} {entries : List String} :
    c ∈ named entries ↔ ∃ t ∈ tokens entries, c ∈ t.set := by
  simp [named, unionOf, CapabilitySet.mem_foldl_union, CapabilitySet.not_mem_empty]

/-- The names that stand for nothing in two lists are those of one after those
of the other. -/
theorem unknownIn_append (a b : List String) : unknownIn (a ++ b) = unknownIn a ++ unknownIn b := by
  simp [unknownIn, tokens_append]

end ContainerLaunch.Capability
