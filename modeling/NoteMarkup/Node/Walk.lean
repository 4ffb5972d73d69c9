import NoteMarkup.Node.Children

/-!
Walks over a tree that read it: the nodes in pre-order, and the text that they hold.
-/

namespace NoteMarkup.Node

mutual

/-- The node and all below it: a node before its children, the header of a table before its rows. -/
def nodes : Node → List Node
  | .leaf l i => [.leaf l i]
  | .branch c cs i => .branch c cs i :: nodesOf cs
  | .table none rs al i => .table none rs al i :: nodesOf rs
  | .table (some h) rs al i => .table (some h) rs al i :: (nodes h ++ nodesOf rs)

/-- The nodes of each tree of a list, in order. -/
def nodesOf : List Node → List Node
  | [] => []
  | n :: ns => nodes n ++ nodesOf ns

end

/-- The texts that are not empty, with `joiner` between neighbours. -/
def joinTexts (joiner : String) (texts : List String) : String :=
  joiner.intercalate (texts.filter fun t => !t.isEmpty)

mutual

/-- The text of a node: what the texts among its children hold, joined at each level. -/
def plainText (joiner : String) : Node → String
  | .leaf (.text content) _ => content
  | .leaf _ _ => ""
  | .branch _ cs _ => joinTexts joiner (plainTexts joiner cs)
  | .table none rs _ _ => joinTexts joiner (plainTexts joiner rs)
  | .table (some h) rs _ _ => joinTexts joiner (plainText joiner h :: plainTexts joiner rs)

/-- The text of each node of a list. -/
def plainTexts (joiner : String) : List Node → List String
  | [] => []
  | n :: ns => plainText joiner n :: plainTexts joiner ns

end

/-- The text of a list of nodes. -/
def plainTextOf (joiner : String) (ns : List Node) : String :=
  joinTexts joiner (plainTexts joiner ns)

/-- The nodes of the dialect that a tree still holds. -/
def dialectNodes (n : Node) : List Node := (nodes n).filter fun m => m.kind.isDialect

end NoteMarkup.Node
