import NoteMarkup.Node.Basic

/-!
Transformation of a tree from the leaves up. A node is replaced when all below it have been; nothing
that replaces a node is visited again. A node can be dropped from its list, and from a table also
the header.

A transformation is told whether a node stands inside a link. The body rows of a table come before
its header.
-/

namespace NoteMarkup

/-- Whether what a container holds stands inside a link. -/
def Container.isLink : Container → Bool
  | .link _ _ => true
  | _ => false

namespace Node

variable {m : Type → Type} [Monad m]

mutual

/-- The replacement of a node by `f`, none if it is dropped. -/
def transform (f : Bool → Node → m (Option Node)) (inLink : Bool) : Node → m (Option Node)
  | .leaf l info => f inLink (.leaf l info)
  | .branch c cs info => do
    let cs ← transformAll f (inLink || c.isLink) cs
    f inLink (.branch c cs info)
  | .table none rows alignments info => do
    let rows ← transformAll f inLink rows
    f inLink (.table none rows alignments info)
  | .table (some header) rows alignments info => do
    let rows ← transformAll f inLink rows
    let header ← transform f inLink header
    f inLink (.table header rows alignments info)

/-- The replacements of the nodes of a list that are not dropped. -/
def transformAll (f : Bool → Node → m (Option Node)) (inLink : Bool) : List Node → m (List Node)
  | [] => pure []
  | n :: ns => do
    let new ← transform f inLink n
    let rest ← transformAll f inLink ns
    pure (new.toList ++ rest)

end

end Node

end NoteMarkup
