import NoteMarkup.Yaml.Implicit
import NoteMarkup.Yaml.Scanner

/-!
The tree of a YAML document. Every node has a tag that says what it denotes; references to anchors
are replaced by the nodes that they name. A reference to a collection around it stays one.
-/

namespace NoteMarkup.Yaml

/-- A node. -/
inductive Node where
  | scalar (tag text : String)
  | sequence (tag : String) (items : List Node)
  | mapping (tag : String) (entries : List (Node × Node))
  /-- The sequence or the mapping that holds this node. -/
  | enclosing (isMapping : Bool)
deriving Inhabited

/-- What is left of the tokens and the fault after them, the anchors so far, and the addresses of
the tag handles. -/
structure Reading where
  tokens : List Token
  fault : Option LoadFault
  anchors : List (String × Node)
  handles : List (String × String)

/-- A computation that reads tokens. -/
abbrev Read := StateT Reading (Except LoadFault)

namespace Read

/-- Gives up. -/
def fail {α : Type} (cause : String) : Read α := throw (.malformed cause)

/-- The next token. A fault of the text counts only when no token is left before it. -/
def peek : Read Token := do
  let r ← get
  match r.tokens, r.fault with
  | t :: _, _ => return t
  | [], some f => throw f
  | [], none => return .streamEnd

/-- Moves over a token. -/
def skip : Read Unit := modify fun r => { r with tokens := r.tokens.drop 1 }

/-- Whether the next token is one of these. -/
def isNext (ts : List Token) : Read Bool := do return ts.contains (← peek)

/-- An empty scalar, where nothing is written. -/
def nothing : Node := .scalar (implicitTag []) ""

/-- What stands before the content of a node. -/
structure Properties where
  anchor : Option String := none
  tag : Option String := none

/-- Whether a node has properties. -/
def Properties.any (p : Properties) : Bool := p.anchor.isSome || p.tag.isSome

/-- The tag that a handle and a suffix give. -/
def fullTag (handle : Option String) (suffix : String) : Read String := do
  match handle with
  | none => return suffix
  | some h =>
    match (← get).handles.lookup h with
    | some address => return address ++ suffix
    | none => fail "found undefined tag handle"

/-- An anchor and a tag in either order. -/
def properties : Read Properties := do
  match ← peek with
  | .anchor name =>
    skip
    match ← peek with
    | .tag h s =>
      skip
      return { anchor := some name, tag := some (← fullTag h s) }
    | _ => return { anchor := some name }
  | .tag h s =>
    skip
    let next ← peek
    if let .anchor _ := next then skip
    let tag ← fullTag h s
    match next with
    | .anchor name => return { anchor := some name, tag := some tag }
    | _ => return { tag := some tag }
  | _ => return {}

/-- The tag of a collection. -/
def Properties.collectionTag (p : Properties) (name : String) : String :=
  match p.tag with
  | some t => if t == "!" then standardTag name else t
  | none => standardTag name

/-- The tag of a scalar: a plain one without a tag, and one with the tag `!`, shows its type. -/
def Properties.scalarTag (p : Properties) (plain : Bool) (text : String) : String :=
  match p.tag with
  | some t => if t == "!" then implicitTag text.toList else t
  | none => if plain then implicitTag text.toList else standardTag "str"

/-- Sets the node that an anchor names. -/
def setAnchor (name : String) (n : Node) : Read Unit :=
  modify fun r => { r with anchors := (name, n) :: r.anchors }

/-- Reads a node and gives it its anchor, which no other node may have. Inside the node the anchor
names what encloses, a mapping or else a sequence. -/
def anchored (p : Properties) (isMapping : Bool) (n : Read Node) : Read Node := do
  match p.anchor with
  | none => n
  | some name =>
    if ((← get).anchors.lookup name).isSome then fail "found duplicate anchor"
    setAnchor name (.enclosing isMapping)
    let n ← n
    setAnchor name n
    return n

mutual

/-- Reads a node. `block` tells whether it may be a block collection, `flush` whether it may be a
sequence whose entries are not indented. `fuel` bounds the work. -/
def node (fuel : Nat) (block flush : Bool) : Read Node := do
  match fuel with
  | 0 => fail "too deep"
  | fuel + 1 =>
    match ← peek with
    | .reference name =>
      skip
      match (← get).anchors.lookup name with
      | some n => return n
      | none => fail "found undefined alias"
    | _ =>
      let p ← properties
      let sequence (items : Read (List Node)) : Read Node := do
        anchored p false do return .sequence (p.collectionTag "seq") (← items)
      let mapping (entries : Read (List (Node × Node))) : Read Node := do
        anchored p true do return .mapping (p.collectionTag "map") (← entries)
      let next ← peek
      if flush && next == .blockEntry then sequence (flushEntries fuel [])
      else
        match next with
        | .scalar text plain =>
          skip
          anchored p false do return .scalar (p.scalarTag plain text) text
        | .flowSequenceStart =>
          skip
          sequence (flowItems fuel true [])
        | .flowMappingStart =>
          skip
          mapping (flowEntries fuel true [])
        | _ =>
          if block && next == .blockSequenceStart then
            skip
            sequence (blockEntries fuel [])
          else if block && next == .blockMappingStart then
            skip
            mapping (blockPairs fuel [])
          else if p.any then
            let implicit := p.tag.isNone || p.tag == some "!"
            anchored p false do return .scalar (if implicit then implicitTag [] else p.tag.getD "") ""
          else fail "expected the node content"

/-- Reads a node unless one of the tokens `ends` follows; then nothing is written. -/
def nodeUnless (fuel : Nat) (ends : List Token) (block flush : Bool) : Read Node := do
  match fuel with
  | 0 => fail "too deep"
  | fuel + 1 => if ← isNext ends then return nothing else node fuel block flush

/-- The entries of a block sequence, after those in `items`, newest first. -/
def blockEntries (fuel : Nat) (items : List Node) : Read (List Node) := do
  match fuel with
  | 0 => fail "too deep"
  | fuel + 1 =>
    match ← peek with
    | .blockEntry =>
      skip
      let n ← nodeUnless fuel [.blockEntry, .blockEnd] true false
      blockEntries fuel (n :: items)
    | .blockEnd =>
      skip
      return items.reverse
    | _ => fail "expected <block end>"

/-- The entries of a sequence that is not indented. -/
def flushEntries (fuel : Nat) (items : List Node) : Read (List Node) := do
  match fuel with
  | 0 => fail "too deep"
  | fuel + 1 =>
    match ← peek with
    | .blockEntry =>
      skip
      let n ← nodeUnless fuel [.blockEntry, .key, .value, .blockEnd] true false
      flushEntries fuel (n :: items)
    | _ => return items.reverse

/-- The entries of a block mapping. -/
def blockPairs (fuel : Nat) (entries : List (Node × Node)) : Read (List (Node × Node)) := do
  match fuel with
  | 0 => fail "too deep"
  | fuel + 1 =>
    let ends : List Token := [.key, .value, .blockEnd]
    let value : Read Node := do
      if (← peek) == .value then
        skip
        nodeUnless fuel ends true true
      else return nothing
    match ← peek with
    | .key =>
      skip
      let k ← nodeUnless fuel ends true true
      let v ← value
      blockPairs fuel ((k, v) :: entries)
    | .blockEnd =>
      skip
      return entries.reverse
    | _ => fail "expected <block end>"

/-- The items of a flow sequence. An item with a key is a mapping of one entry. -/
def flowItems (fuel : Nat) (first : Bool) (items : List Node) : Read (List Node) := do
  match fuel with
  | 0 => fail "too deep"
  | fuel + 1 =>
    if (← peek) == .flowSequenceEnd then
      skip
      return items.reverse
    else
      if !first then
        if (← peek) == .flowEntry then skip else fail "expected ',' or ']'"
      match ← peek with
      | .key =>
        skip
        let k ← nodeUnless fuel [.value, .flowEntry, .flowSequenceEnd] false false
        let v ← if (← peek) == .value then do
            skip
            nodeUnless fuel [.flowEntry, .flowSequenceEnd] false false
          else pure nothing
        flowItems fuel false (.mapping (standardTag "map") [(k, v)] :: items)
      | .flowSequenceEnd =>
        skip
        return items.reverse
      | _ =>
        let n ← node fuel false false
        flowItems fuel false (n :: items)

/-- The entries of a flow mapping. An item without a key mark is a key without a value. -/
def flowEntries (fuel : Nat) (first : Bool) (entries : List (Node × Node)) :
    Read (List (Node × Node)) := do
  match fuel with
  | 0 => fail "too deep"
  | fuel + 1 =>
    if (← peek) == .flowMappingEnd then
      skip
      return entries.reverse
    else
      if !first then
        if (← peek) == .flowEntry then skip else fail "expected ',' or '\x7d'"
      match ← peek with
      | .key =>
        skip
        let k ← nodeUnless fuel [.value, .flowEntry, .flowMappingEnd] false false
        let v ← if (← peek) == .value then do
            skip
            nodeUnless fuel [.flowEntry, .flowMappingEnd] false false
          else pure nothing
        flowEntries fuel false ((k, v) :: entries)
      | .flowMappingEnd =>
        skip
        return entries.reverse
      | _ =>
        let k ← node fuel false false
        flowEntries fuel false ((k, nothing) :: entries)

end

/-! ### Documents -/

/-- The handles that every document knows. -/
def defaultHandles : List (String × String) := [("!", "!"), ("!!", standardAddress)]

/-- Reads directives; `fuel` bounds their number. -/
def directives : (fuel : Nat) → (version : Bool) → (handles : List (String × String)) →
    Read (List (String × String))
  | 0, _, handles => return handles
  | n + 1, version, handles => do
    match ← peek with
    | .directive (.version major _) =>
      skip
      if version then fail "found duplicate YAML directive"
      if major != 1 then fail "found incompatible YAML document"
      directives n true handles
    | .directive (.tag handle address) =>
      skip
      if (handles.lookup handle).isSome then fail "duplicate tag handle"
      directives n version ((handle, address) :: handles)
    | .directive (.other _) =>
      skip
      directives n version handles
    | _ => return handles

/-- Moves over the marks of ended documents; `fuel` bounds their number. -/
def skipEnds : (fuel : Nat) → Read Unit
  | 0 => return ()
  | n + 1 => do
    if (← peek) == .documentEnd then
      skip
      skipEnds n

/-- Whether a directive follows. -/
def atDirective : Read Bool := do
  match ← peek with
  | .directive _ => return true
  | _ => return false

/-- Reads the content of a document, which may be nothing after its mark. -/
def documentContent (fuel : Nat) : Read Node := do
  if (← atDirective) || (← isNext [.documentStart, .documentEnd, .streamEnd]) then return nothing
  else node fuel true false

/-- Reads the one document of a text, if the text has any. -/
def document (fuel : Nat) : Read (Option Node) := do
  let marked := (← atDirective) || (← isNext [.documentStart, .streamEnd])
  let n ←
    if !marked then some <$> node fuel true false
    else
      skipEnds fuel
      if (← peek) == .streamEnd then pure none
      else
        let handles ← directives fuel false []
        if (← peek) != .documentStart then fail "expected '<document start>'"
        skip
        let more := defaultHandles.filter fun h => (handles.lookup h.1).isNone
        modify fun r => { r with handles := handles ++ more }
        some <$> documentContent fuel
  if n.isSome then
    skipEnds fuel
    if (← peek) != .streamEnd then fail "expected a single document in the stream"
  return n

end Read

/-- The root of the one document of a text, if the text has any. -/
def compose (text : List Char) : Except LoadFault (Option Node) := do
  let s := scan text
  let fuel := 4 * (s.tokens.length + 4)
  let (n, _) ← (Read.document fuel).run ⟨s.tokens, s.fault, [], Read.defaultHandles⟩
  return n

end NoteMarkup.Yaml
