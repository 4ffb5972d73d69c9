import NoteMarkup.Yaml.Node
import NoteMarkup.Yaml.ScalarValue

/-!
The value of a YAML node. A merge key adds the entries of other mappings; they stand before the
entries of the mapping itself, which win.

A collection is built after all that stands around it, level by level, and within a level from left
to right. Of several faults in a document the first one in this order counts.
-/

namespace NoteMarkup.Yaml

/-- What is to be built from a node. What does not fit the tag of a collection fails only when its
turn comes. -/
inductive Draft where
  | ready (value : Except LoadFault Value)
  | failing (f : LoadFault)
  /-- The list or the map that holds this draft. -/
  | enclosing (isMap : Bool)
  | list (items : List Draft)
  | pairs (items : List (Draft × Draft))
  | map (entries : List (Draft × Draft))
  | set (entries : List (Draft × Draft))

/-! ### Scalars -/

/-- The tag of a node; that of what encloses it is left open. -/
def Node.tag : Node → String
  | .scalar tag _ => tag
  | .sequence tag _ => tag
  | .mapping tag _ => tag
  | .enclosing _ => ""

/-- Whether a node has the tag of a standard type. -/
def Node.isA (n : Node) (name : String) : Bool := n.tag == standardTag name

mutual

/-- The text of a node as a scalar. The value of the key `=` stands for a mapping. -/
def Node.text? : Node → Option String
  | .scalar _ text => some text
  | .mapping _ entries => valueText? entries
  | .sequence _ _ | .enclosing _ => none

/-- The text of the value of the first key `=`. -/
def valueText? : List (Node × Node) → Option String
  | [] => none
  | (k, v) :: rest => if k.isA "value" then v.text? else valueText? rest

end

/-- The value that the tag of a scalar gives a node. -/
def Node.scalarAs (tag : String) (n : Node) : Except LoadFault Value :=
  match n.text? with
  | none => throw unfit
  | some text =>
    match n with
    | .scalar _ _ => scalarValue tag text
    | _ => if tag == standardTag "timestamp" then throw (.scalar .noText) else scalarValue tag text

/-- The key of an entry. Only scalars can be keys; the key `=` is a text there. -/
def Node.key (n : Node) : Draft :=
  .ready (n.scalarAs (if n.isA "value" then standardTag "str" else n.tag))

/-! ### Collections -/

/-- The tags of collections. -/
def collections : List String := ["seq", "map", "set", "omap", "pairs"]

/-- What is to be built from a node that is not the collection its tag names: a scalar, or what
fails. -/
def Node.scalarDraft (n : Node) : Draft :=
  if collections.any n.isA then .failing unfit else .ready (n.scalarAs n.tag)

mutual

/-- What is to be built from a node. -/
def Node.draft : Node → Draft
  | .scalar tag text => (Node.scalar tag text).scalarDraft
  | .sequence tag items =>
    if tag == standardTag "seq" then .list (drafts items)
    else if tag == standardTag "omap" || tag == standardTag "pairs" then .pairs (pairDrafts items)
    else (Node.sequence tag items).scalarDraft
  | .mapping tag entries =>
    if tag == standardTag "map" then
      match entryDrafts entries with
      | .ok (merged, own) => .map (merged ++ own)
      | .error f => .failing f
    else if tag == standardTag "set" then
      match entryDrafts entries with
      | .ok (merged, own) => .set (merged ++ own)
      | .error f => .failing f
    else (Node.mapping tag entries).scalarDraft
  | .enclosing isMapping => .enclosing isMapping

/-- What is to be built from nodes. -/
def drafts : List Node → List Draft
  | [] => []
  | n :: ns => n.draft :: drafts ns

/-- The pairs of a list of mappings with one entry each. -/
def pairDrafts : List Node → List (Draft × Draft)
  | [] => []
  | n :: ns =>
    match n with
    | .mapping _ [(k, v)] => (k.draft, v.draft) :: pairDrafts ns
    | _ => (.ready (throw unfit), .ready (throw unfit)) :: pairDrafts ns

/-- The entries of a mapping: those that merge keys add, and its own. -/
def entryDrafts : List (Node × Node) →
    Except LoadFault (List (Draft × Draft) × List (Draft × Draft))
  | [] => return ([], [])
  | (k, n) :: rest => do
    if k.isA "merge" then
      let added ← mergedDrafts n
      let (merged, own) ← entryDrafts rest
      return (added ++ merged, own)
    else
      let (merged, own) ← entryDrafts rest
      return (merged, (k.key, n.draft) :: own)

/-- The entries that a merge key adds: those of a mapping, or of the mappings of a list, the first
of which wins. -/
def mergedDrafts : Node → Except LoadFault (List (Draft × Draft))
  | .mapping _ entries => do
    let (merged, own) ← entryDrafts entries
    return merged ++ own
  | .sequence _ items => mergedLists items
  | .enclosing _ => return []
  | .scalar _ _ => throw (.malformed "expected a mapping or list of mappings for merging")

/-- The entries of the mappings of a list, the last mapping first. -/
def mergedLists : List Node → Except LoadFault (List (Draft × Draft))
  | [] => return []
  | n :: ns =>
    match n with
    | .mapping _ entries => do
      let (merged, own) ← entryDrafts entries
      let more ← mergedLists ns
      return more ++ (merged ++ own)
    | .enclosing true => mergedLists ns
    | _ => throw (.malformed "expected a mapping for merging")

end

/-! ### Faults, level by level -/

/-- Two lists of levels, level by level. -/
def joinLevels {α : Type} : List (List α) → List (List α) → List (List α)
  | [], ys => ys
  | xs, [] => xs
  | x :: xs, y :: ys => (x ++ y) :: joinLevels xs ys

mutual

/-- The faults of a draft by levels. Those of the items of a collection that are scalars are on the
level of the collection. -/
def Draft.faults : Draft → List (List LoadFault)
  | .ready (.ok _) => []
  | .ready (.error f) => [[f]]
  | .failing f => [[], [f]]
  | .enclosing _ => []
  | .list items => [] :: itemFaults items
  | .pairs items => [] :: entryFaults items
  | .map entries => [] :: entryFaults entries
  | .set entries => [] :: entryFaults entries

/-- The faults of the items of a list. -/
def itemFaults : List Draft → List (List LoadFault)
  | [] => []
  | d :: ds => joinLevels d.faults (itemFaults ds)

/-- The faults of the entries of a mapping. -/
def entryFaults : List (Draft × Draft) → List (List LoadFault)
  | [] => []
  | (k, v) :: es => joinLevels k.faults (joinLevels v.faults (entryFaults es))

end

/-! ### Values -/

/-- The entries with every key once: it keeps its first place and gets what is set last. -/
def lastWins {α : Type} (entries : List (Value × α)) : List (Value × α) :=
  entries.foldl (fun es e => Entries.insert es e.1 e.2) []

mutual

/-- The value of a draft. -/
def Draft.value : Draft → Except LoadFault Value
  | .ready r => r
  | .failing f => throw f
  | .enclosing isMap => return .enclosing isMap
  | .list items => return .list (← itemValues items)
  | .pairs items => do
    return .list (← (← entryValues items).mapM fun e => return .pair e.1 (← e.2))
  | .map entries => do
    return .map (← (lastWins (← entryValues entries)).mapM fun e => return (e.1, ← e.2))
  | .set entries => return .set ((lastWins (← entryValues entries)).map (·.1))

/-- The values of the items of a list. -/
def itemValues : List Draft → Except LoadFault (List Value)
  | [] => return []
  | d :: ds => do
    let v ← d.value
    let vs ← itemValues ds
    return v :: vs

/-- The keys of the entries of a mapping with what their values come to. -/
def entryValues :
    List (Draft × Draft) → Except LoadFault (List (Value × Except LoadFault Value))
  | [] => return []
  | (k, v) :: es => do
    let key ← k.value
    let rest ← entryValues es
    return (key, v.value) :: rest

end

/-- The value of a node, or the first of its faults. -/
def Node.value (n : Node) : Except LoadFault Value :=
  match n.draft.faults.flatten with
  | f :: _ => throw f
  | [] => n.draft.value

/-- Loads the one document of a text; a text without one is null. -/
def load (text : List Char) : Except LoadFault Value := do
  match ← compose text with
  | none => return .null
  | some n => n.value

end NoteMarkup.Yaml
