import NoteMarkup.Node.Basic

/-!
The children of a node, seen as one list, and their replacement. The header of a table comes before
its body rows; the first header row of a new list becomes the header.
-/

namespace NoteMarkup.Node

/-- The children, the header of a table first. -/
def children : Node → List Node
  | .leaf _ _ => []
  | .branch _ cs _ => cs
  | .table h rs _ _ => h.toList ++ rs

/-- The first header row and the other rows. -/
def splitHeader (rows : List Node) : Option Node × List Node :=
  match rows with
  | [] => (none, [])
  | r :: rs =>
    if r.isHeaderRow then (some r, rs)
    else
      let (h, rest) := splitHeader rs
      (h, r :: rest)

/-- The first node of a list that is not a table row. -/
def firstOther? (rows : List Node) : Option Kind :=
  (rows.find? fun r => r.kind != .tableRow).map kind

/-- The node with other children; a leaf stays as it is. The result is the kind of the first child
that a table cannot hold, if there is one. -/
def replaceChildren (n : Node) (new : List Node) : Except Kind Node :=
  match n with
  | .leaf l i => .ok (.leaf l i)
  | .branch c _ i => .ok (.branch c new i)
  | .table _ _ al i =>
    match firstOther? new with
    | some k => .error k
    | none =>
      let (h, rs) := splitHeader new
      .ok (.table h rs al i)

/-- The node at a path of positions among children. -/
def at? (n : Node) : (path : List Nat) → Option Node
  | [] => some n
  | i :: path => n.children[i]?.bind fun c => at? c path

/-- The header or a row of a table, counted with the header first, replaced. -/
def setRow (h : Option Node) (rs : List Node) (i : Nat) (new : Node) : Option Node × List Node :=
  match h, i with
  | some _, 0 => (some new, rs)
  | some h, i + 1 => (some h, rs.set i new)
  | none, i => (none, rs.set i new)

/-- The node with the node at a path changed in place. -/
def modifyAt (f : Node → Node) (n : Node) : (path : List Nat) → Node
  | [] => f n
  | i :: path =>
    match n.children[i]? with
    | none => n
    | some c =>
      let c := modifyAt f c path
      match n with
      | .leaf l info => .leaf l info
      | .branch k cs info => .branch k (cs.set i c) info
      | .table h rs al info =>
        let (h, rs) := setRow h rs i c
        .table h rs al info

end NoteMarkup.Node
