import ContainerLaunch.Json.Codec
import ContainerLaunch.Yaml.Node
/-!
# Policy directives

The value of one directive of the administrator's policy, whichever notation it
was written in, and what it is read as: a yes or no, a text, a list of texts or a
choice among names.
-/

namespace ContainerLaunch

/-- The value of a directive. -/
inductive Directive where
  | flag (b : Bool)
  | text (s : String)
  /-- Nothing was written. -/
  | blank
  | list (items : List Directive)
  /-- A name that stands as the only key of a mapping to nothing. -/
  | only (name : String)
  /-- A scalar with a tag, `plain` if nothing quotes it. -/
  | tagged (tag : String) (plain : Bool) (s : String)
  /-- A value that no directive has. -/
  | other
  deriving Inhabited

namespace Directive

mutual

def ofJson : Json → Directive
  | .bool b => .flag b
  | .string s => .text s
  | .array items => .list (ofJsonItems items)
  | .object [(name, .null)] => .only name
  | _ => .other

/-- The values that the items of an array describe. -/
def ofJsonItems : List Json → List Directive
  | [] => []
  | item :: rest => ofJson item :: ofJsonItems rest

end

/-- The value of a scalar.  It is kept as it is spelled, for a number or a truth
value stands for its spelling where a text is wanted. -/
def ofScalar (tag : Option String) (plain : Bool) (s : String) : Directive :=
  match tag with
  | none => if plain && s == "" then .blank else .text s
  | some tag => .tagged tag plain s

/-- The value that an item of a sequence describes; only a scalar is of use. -/
def ofItem (root item : Yaml.Node) : Directive :=
  match root.target item with
  | some (.scalar tag plain s) => ofScalar tag plain s
  | _ => .other

/-- The value that a part of the YAML document `root` describes. -/
def ofYaml (root part : Yaml.Node) : Directive :=
  match root.target part with
  | some (.scalar tag plain s) => ofScalar tag plain s
  | some (.sequence items) => .list (items.map (ofItem root))
  | _ => .other

/-- The name that a tag of the document's own gives. -/
def ownName (tag : String) : Option String :=
  match tag.toList with
  | '!' :: name => some (String.ofList name)
  | _ => none

/-- The tag of a kind of scalar that every document knows. -/
def commonTag (kind : String) : String :=
  "tag:yaml.org,2002:" ++ kind

/-- The truth value with a spelling. -/
def truthOf (s : String) : Option Bool :=
  if s ∈ ["true", "True", "TRUE"] then some true
  else if s ∈ ["false", "False", "FALSE"] then some false
  else none

/-- Whether a scalar stands for nothing. -/
def isNull (plain : Bool) (s : String) : Bool :=
  plain && ["", "~", "null", "Null", "NULL"].contains s

/-- The value of a word that says yes or no, in any case. -/
def yesNoOf (word : String) : Option Bool :=
  let word := Text.lower (Text.trim word)
  if word = "yes" ∨ word = "true" ∨ word = "on" then some true
  else if word = "no" ∨ word = "false" ∨ word = "off" then some false
  else none

/-- A directive read as yes or no. -/
def switch? : Directive → Option Bool
  | .flag b => some b
  | .text s => yesNoOf s
  | .tagged tag _ s =>
    if (ownName tag).isSome then none
    else if tag = commonTag "bool" then truthOf s
    else if tag ∈ ["int", "float", "null"].map commonTag then none
    else yesNoOf s
  | _ => none

def text? : Directive → Option String
  | .text s => some s
  | .tagged _ _ s => some s
  | .blank => some ""
  | _ => none

/-- A directive read as a list of texts. -/
def texts? : Directive → Option (List String)
  | .list items => items.mapM text?
  | .tagged _ plain s => if plain && s == "" then some [] else none
  | .blank => some []
  | _ => none

/-- A directive read as one of several names, where `further` gives more
spellings.  A name may also stand as the tag of nothing. -/
def choice? {α : Type} (name : α → String) (all : List α) (further : List (String × α))
    (d : Directive) : Option α :=
  let find (s : String) : Option α :=
    match all.find? fun a => name a == s with
    | some a => some a
    | none => (further.find? fun f => f.1 == s).map Prod.snd
  match d with
  | .text s => find s
  | .only s => find s
  | .tagged tag plain s =>
    match ownName tag with
    | some name => if isNull plain s then find name else none
    | none => find s
  | _ => none

end Directive
end ContainerLaunch
