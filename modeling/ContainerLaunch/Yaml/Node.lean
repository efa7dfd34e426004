import ContainerLaunch.Yaml.Token
/-!
# YAML documents

The tree that a list of tokens describes.  A place without content holds an
empty plain scalar.  An alias stands for the last place with the anchor that it
names, and is followed only where it is read, for a place may stand inside
itself.  A text holds one document; more than one is refused.
-/

namespace ContainerLaunch.Yaml

/-- A part of a YAML document. -/
inductive Node where
  | scalar (tag : Option String) (plain : Bool) (text : String)
  | sequence (items : List Node)
  | mapping (entries : List (Node × Node))
  | anchored (id : Nat) (node : Node)
  | alias (id : Nat)
  deriving Repr, Inhabited

namespace Node

/-- The content of a place where nothing stands. -/
def empty : Node := .scalar none true ""

mutual

/-- What stands at the last place with an anchor. -/
def anchored? (id : Nat) : Node → Option Node
  | .anchored n node => (node.anchored? id).or (if n = id then some node else none)
  | .sequence items => anchoredItem? id items
  | .mapping entries => anchoredPair? id entries
  | _ => none

/-- What stands at the last place with an anchor among the items of a sequence. -/
def anchoredItem? (id : Nat) : List Node → Option Node
  | [] => none
  | item :: rest => (anchoredItem? id rest).or (item.anchored? id)

/-- What stands at the last place with an anchor among the entries of a mapping. -/
def anchoredPair? (id : Nat) : List (Node × Node) → Option Node
  | [] => none
  | (key, value) :: rest =>
    (anchoredPair? id rest).or ((value.anchored? id).or (key.anchored? id))

end

/-- What stands at a part of the document `root`, which an alias takes from its
anchor. -/
def target (root : Node) : Node → Option Node
  | .alias id => root.anchored? id
  | .anchored _ node => some node
  | node => some node

/-- What stands before a node: its anchor and its tag. -/
structure Properties where
  anchor : Option Nat
  tag : Option String

namespace Properties

/-- The properties at the start of a list of tokens and the tokens after them. -/
def ofTokens : List Token → Properties × List Token
  | .anchor id :: .tag name :: rest => (⟨some id, some name⟩, rest)
  | .tag name :: .anchor id :: rest => (⟨some id, some name⟩, rest)
  | .anchor id :: rest => (⟨some id, none⟩, rest)
  | .tag name :: rest => (⟨none, some name⟩, rest)
  | ts => (⟨none, none⟩, ts)

/-- A node with its anchor. -/
def node (p : Properties) (content : Node) : Node :=
  match p.anchor with
  | some id => .anchored id content
  | none => content

/-- A scalar with its properties.  The tag `!` says nothing of a scalar that is
written. -/
def scalar (p : Properties) (plain : Bool) (text : String) : Node :=
  p.node (.scalar (p.tag.filter (· != "!")) plain text)

/-- A collection that was read after its properties. -/
def before (p : Properties) (read : Option (Node × List Token)) : Option (Node × List Token) :=
  read.map fun (content, rest) => (p.node content, rest)

/-- The node that properties make without content before a list of tokens. -/
def alone (p : Properties) (ts : List Token) : Option (Node × List Token) :=
  if p.anchor.isNone && p.tag.isNone then none else some (p.node (.scalar p.tag true ""), ts)

end Properties

/-- Whether nothing stands before a token in a collection by indentation. -/
def endsBlock (indentless : Bool) : List Token → Bool
  | .key :: _ | .value :: _ => indentless
  | .item :: _ | .blockEnd :: _ => true
  | _ => false

/-- Whether nothing stands before a token in a mapping by indentation. -/
def endsEntry : List Token → Bool
  | .key :: _ | .value :: _ | .blockEnd :: _ => true
  | _ => false

/-- Whether nothing stands before a token in brackets that `close` closes. -/
def endsFlow (close : Token) : List Token → Bool
  | .comma :: _ => true
  | t :: _ => t = close
  | [] => false

mutual

/-- A node and the tokens after it.  Outside brackets collections by indentation
may stand; as a value of a mapping also a sequence that is not indented. -/
def ofTokens (block indentless : Bool) : Nat → List Token → Option (Node × List Token)
  | 0, _ => none
  | fuel + 1, ts =>
    match ts with
    | .alias id :: rest => some (.alias id, rest)
    | ts =>
      let (properties, ts) := Properties.ofTokens ts
      match ts with
      | .scalar plain text :: rest => some (properties.scalar plain text, rest)
      | .openSequence :: rest => properties.before (flowItems true [] fuel rest)
      | .openMapping :: rest => properties.before (flowEntries true [] fuel rest)
      | .item :: _ =>
        if indentless then properties.before (blockItems true [] fuel ts) else properties.alone ts
      | .sequenceStart :: rest =>
        if block then properties.before (blockItems false [] fuel rest) else properties.alone ts
      | .mappingStart :: rest =>
        if block then properties.before (blockEntries [] fuel rest) else properties.alone ts
      | ts => properties.alone ts

/-- The items of a sequence by indentation, after those already read, last
first. -/
def blockItems (indentless : Bool) (read : List Node) :
    Nat → List Token → Option (Node × List Token)
  | 0, _ => none
  | fuel + 1, ts =>
    match ts with
    | .item :: rest =>
      if endsBlock indentless rest then blockItems indentless (empty :: read) fuel rest
      else
        match ofTokens true false fuel rest with
        | some (node, rest) => blockItems indentless (node :: read) fuel rest
        | none => none
    | .blockEnd :: rest =>
      some (.sequence read.reverse, if indentless then .blockEnd :: rest else rest)
    | ts => if indentless then some (.sequence read.reverse, ts) else none

/-- The entries of a mapping by indentation, after those already read, last
first. -/
def blockEntries (read : List (Node × Node)) : Nat → List Token → Option (Node × List Token)
  | 0, _ => none
  | fuel + 1, ts =>
    match ts with
    | .key :: rest =>
      match (if endsEntry rest then some (empty, rest) else ofTokens true true fuel rest) with
      | some (key, .value :: rest) =>
        match (if endsEntry rest then some (empty, rest) else ofTokens true true fuel rest) with
        | some (value, rest) => blockEntries ((key, value) :: read) fuel rest
        | none => none
      | some (key, rest) => blockEntries ((key, empty) :: read) fuel rest
      | none => none
    | .blockEnd :: rest => some (.mapping read.reverse, rest)
    | _ => none

/-- The items between square brackets, after those already read, last first. -/
def flowItems (first : Bool) (read : List Node) : Nat → List Token → Option (Node × List Token)
  | 0, _ => none
  | fuel + 1, ts =>
    match ts with
    | .closeSequence :: rest => some (.sequence read.reverse, rest)
    | .comma :: rest =>
      if first then none
      else
        match rest with
        | .closeSequence :: rest => some (.sequence read.reverse, rest)
        | rest => flowItem read fuel rest
    | ts => if first then flowItem read fuel ts else none

/-- One item between square brackets, which may be a single entry of a mapping,
and the items after it. -/
def flowItem (read : List Node) : Nat → List Token → Option (Node × List Token)
  | 0, _ => none
  | fuel + 1, ts =>
    match ts with
    | .key :: rest =>
      match (if endsFlow .closeSequence rest || rest.head? == some .value then some (empty, rest)
        else ofTokens false false fuel rest) with
      | some (key, .value :: rest) =>
        match (if endsFlow .closeSequence rest then some (empty, rest)
          else ofTokens false false fuel rest) with
        | some (value, rest) => flowItems false (.mapping [(key, value)] :: read) fuel rest
        | none => none
      | some (key, rest) => flowItems false (.mapping [(key, empty)] :: read) fuel rest
      | none => none
    | ts =>
      match ofTokens false false fuel ts with
      | some (node, rest) => flowItems false (node :: read) fuel rest
      | none => none

/-- The entries between braces, after those already read, last first. -/
def flowEntries (first : Bool) (read : List (Node × Node)) :
    Nat → List Token → Option (Node × List Token)
  | 0, _ => none
  | fuel + 1, ts =>
    match ts with
    | .closeMapping :: rest => some (.mapping read.reverse, rest)
    | .comma :: rest =>
      if first then none
      else
        match rest with
        | .closeMapping :: rest => some (.mapping read.reverse, rest)
        | rest => flowEntry read fuel rest
    | ts => if first then flowEntry read fuel ts else none

/-- One entry between braces, and the entries after it. -/
def flowEntry (read : List (Node × Node)) : Nat → List Token → Option (Node × List Token)
  | 0, _ => none
  | fuel + 1, ts =>
    match ts with
    | .key :: rest =>
      match (if endsFlow .closeMapping rest || rest.head? == some .value then some (empty, rest)
        else ofTokens false false fuel rest) with
      | some (key, .value :: rest) =>
        match (if endsFlow .closeMapping rest then some (empty, rest)
          else ofTokens false false fuel rest) with
        | some (value, rest) => flowEntries false ((key, value) :: read) fuel rest
        | none => none
      | some (key, rest) => flowEntries false ((key, empty) :: read) fuel rest
      | none => none
    | ts =>
      match ofTokens false false fuel ts with
      | some (node, rest) => flowEntries false ((node, empty) :: read) fuel rest
      | none => none

end

/-- The content of a document and the tokens after it. -/
def content (ts : List Token) : Option (Node × List Token) :=
  match ts with
  | [] => some (empty, [])
  | .documentStart :: _ | .documentEnd :: _ | .directive :: _ => some (empty, ts)
  | ts => ofTokens true false (3 * ts.length + 3) ts

/-- The first document of a list of tokens and the tokens after it.  After
directives its start must be marked. -/
def document (ts : List Token) : Option (Node × List Token) :=
  match ts with
  | .documentStart :: rest => content rest
  | .documentEnd :: _ => none
  | .directive :: rest =>
    match rest.dropWhile (· == .directive) with
    | .documentStart :: rest => content rest
    | _ => none
  | ts => content ts

def parse (text : String) : Option Node := do
  let ts ← tokens text
  let (node, rest) ← document ts
  if (rest.dropWhile (· == .documentEnd)).isEmpty then some node else none

end Node
end ContainerLaunch.Yaml
