import NoteMarkup.Proofs.Tree
import NoteMarkup.Stage.Simple

/-! Stages that replace the leaves of one kind. Such a stage maps a tree: every leaf of the kind gives way
to its replacement, or goes, and all else stays as and where it is. So two of them, one after the other, are
one that replaces twice, if the first replaces leaves of the kind by leaves of the kind. -/

namespace NoteMarkup

theorem Leaf.kind_ne_container (l : Leaf) (c : Container) : l.kind ≠ c.kind := by
  cases l <;> cases c <;> nofun

theorem Leaf.kind_ne_table (l : Leaf) : l.kind ≠ .table := by
  cases l <;> nofun

namespace Node

variable {k : Kind} {f g : Node → Option Node} {n : Node}

/-- What becomes of a single node when those of a kind are replaced. -/
def swap (k : Kind) (f : Node → Option Node) (n : Node) : Option Node :=
  if n.kind = k then f n else some n

mutual

/-- The tree with each leaf of a kind replaced or dropped, none if the tree is dropped itself. -/
def replaced (k : Kind) (f : Node → Option Node) : Node → Option Node
  | .leaf l info => swap k f (.leaf l info)
  | .branch c cs info => some (.branch c (replacedAll k f cs) info)
  | .table none rows al info => some (.table none (replacedAll k f rows) al info)
  | .table (some header) rows al info =>
    some (.table (replaced k f header) (replacedAll k f rows) al info)

def replacedAll (k : Kind) (f : Node → Option Node) : List Node → List Node
  | [] => []
  | n :: ns => (replaced k f n).toList ++ replacedAll k f ns

end

theorem replacedAll_eq_filterMap (ns : List Node) :
    replacedAll k f ns = ns.filterMap (replaced k f) := by
  induction ns with
  | nil => rfl
  | cons n ns ih =>
      rw [replacedAll, ih, List.filterMap_cons]
      cases replaced k f n <;> rfl

theorem replaced_table (header : Option Node) (rows : List Node) (al : List (Option String))
    (info : Record) : replaced k f (.table header rows al info) =
      some (.table (header.bind (replaced k f)) (rows.filterMap (replaced k f)) al info) := by
  cases header <;> simp only [replaced, replacedAll_eq_filterMap, Option.bind]

theorem replaced_branch (c : Container) (cs : List Node) (info : Record) :
    replaced k f (.branch c cs info) = some (.branch c (cs.filterMap (replaced k f)) info) := by
  rw [replaced, replacedAll_eq_filterMap]

section LeafKind

variable (isLeaf : ∃ l : Leaf, l.kind = k)
include isLeaf

theorem exists_leaf_of_kind (h : n.kind = k) : ∃ l info, n = .leaf l info := by
  obtain ⟨l, rfl⟩ := isLeaf
  cases n with
  | leaf l' info => exact ⟨l', info, rfl⟩
  | branch c cs info => exact absurd h.symm (l.kind_ne_container c)
  | table header rows al info => exact absurd h.symm l.kind_ne_table

theorem swap_branch (c : Container) (cs : List Node) (info : Record) :
    swap k f (.branch c cs info) = some (.branch c cs info) := by
  obtain ⟨l, rfl⟩ := isLeaf
  exact if_neg (l.kind_ne_container c).symm

theorem swap_table (header : Option Node) (rows : List Node) (al : List (Option String))
    (info : Record) : swap k f (.table header rows al info) = some (.table header rows al info) := by
  obtain ⟨l, rfl⟩ := isLeaf
  exact if_neg l.kind_ne_table.symm

/-- A transformation that looks at no more than the kind of a node maps the tree. -/
theorem transform_swap (n : Node) : ∀ inLink,
    n.transform (fun _ m => (.ok (swap k f m) : Except Fault (Option Node))) inLink =
      .ok (n.replaced k f) := by
  have list : ∀ ns : List Node, (∀ n ∈ ns, ∀ inLink,
      n.transform (fun _ m => (.ok (swap k f m) : Except Fault (Option Node))) inLink =
        .ok (n.replaced k f)) → ∀ inLink,
      transformAll (fun _ m => (.ok (swap k f m) : Except Fault (Option Node))) inLink ns =
        .ok (replacedAll k f ns) := by
    intro ns each inLink
    induction ns with
    | nil => rfl
    | cons n ns ih =>
        obtain ⟨first, later⟩ := List.forall_mem_cons.mp each
        rw [transformAll, first inLink, ih later]
        rfl
  induction n using induct with
  | leaf l info => exact fun inLink => rfl
  | branch c cs info ih =>
      intro inLink
      rw [transform, list cs ih]
      exact congrArg Except.ok (swap_branch isLeaf c _ info)
  | table header rows al info hheader hrows =>
      intro inLink
      cases header with
      | none =>
          rw [transform, list rows hrows]
          exact congrArg Except.ok (swap_table isLeaf none _ al info)
      | some header =>
          rw [transform, list rows hrows, hheader header rfl]
          exact congrArg Except.ok (swap_table isLeaf _ _ al info)

/-- To replace twice is to replace once by what the second replacement makes of the first. -/
theorem replaced_replaced (into : ∀ n m, n.kind = k → f n = some m → m.kind = k) (n : Node) :
    (n.replaced k f).bind (replaced k g) = n.replaced k fun n => (f n).bind g := by
  have list : ∀ ns : List Node, (∀ n ∈ ns,
      (n.replaced k f).bind (replaced k g) = n.replaced k fun n => (f n).bind g) →
      (ns.filterMap (replaced k f)).filterMap (replaced k g) =
        ns.filterMap (replaced k fun n => (f n).bind g) := by
    intro ns each
    rw [List.filterMap_filterMap]
    exact List.filterMap_congr each
  induction n using induct with
  | leaf l info =>
      by_cases here : l.kind = k
      · have hit : ∀ h, swap k h (.leaf l info) = h (.leaf l info) := fun h => if_pos here
        rw [replaced, replaced, hit, hit]
        cases found : f (.leaf l info) with
        | none => rfl
        | some m =>
            have kept := into (.leaf l info) m here found
            obtain ⟨l', info', rfl⟩ := exists_leaf_of_kind isLeaf kept
            exact if_pos kept
      · have missed : ∀ h, swap k h (.leaf l info) = some (.leaf l info) := fun h => if_neg here
        rw [replaced, replaced, missed, missed, Option.bind_some, replaced, missed]
  | branch c cs info ih =>
      rw [replaced_branch, replaced_branch, Option.bind_some, replaced_branch, list cs ih]
  | table header rows al info hheader hrows =>
      rw [replaced_table, replaced_table, Option.bind_some, replaced_table, list rows hrows]
      cases header with
      | none => rfl
      | some header => rw [Option.bind_some, Option.bind_some, hheader header rfl]

end LeafKind

/-- A node without its children. -/
def childless : Node → Node
  | .leaf l info => .leaf l info
  | .branch c _ info => .branch c [] info
  | .table _ _ al info => .table none [] al info

/-- The nodes of trees in order, each without its children. -/
def outline (ns : List Node) : List Node := (nodesOf ns).map childless

theorem outline_singleton (n : Node) : outline [n] = n.childless :: outline n.children := by
  rw [outline, nodesOf_singleton, List.map_cons]
  rfl

theorem outline_append (ns ms : List Node) : outline (ns ++ ms) = outline ns ++ outline ms := by
  rw [outline, nodesOf_append, List.map_append]
  rfl

/-- What stands for a node in the outline of the tree in which those of a kind are replaced. -/
def outlineAt (k : Kind) (f : Node → Option Node) (n : Node) : List Node :=
  if n.kind = k then outline (f n).toList else [n.childless]

/-- Replacement changes the outline of a tree at the nodes of the kind and nowhere else. -/
theorem outline_replaced (isLeaf : ∃ l : Leaf, l.kind = k) (n : Node) :
    outline (n.replaced k f).toList = n.nodes.flatMap (outlineAt k f) := by
  have list : ∀ ns : List Node,
      (∀ n ∈ ns, outline (n.replaced k f).toList = n.nodes.flatMap (outlineAt k f)) →
      outline (ns.filterMap (replaced k f)) = (nodesOf ns).flatMap (outlineAt k f) := by
    intro ns each
    induction ns with
    | nil => rfl
    | cons n ns ih =>
        obtain ⟨first, later⟩ := List.forall_mem_cons.mp each
        rw [← replacedAll_eq_filterMap, replacedAll, replacedAll_eq_filterMap, outline_append, first,
          ih later, nodesOf, List.flatMap_append]
  obtain ⟨leaf, rfl⟩ := isLeaf
  induction n using induct with
  | leaf l info =>
      rw [replaced, swap, nodes, List.flatMap_singleton, outlineAt]
      split <;> rfl
  | branch c cs info ih =>
      have kept : outlineAt leaf.kind f (.branch c cs info) = [.branch c [] info] :=
        if_neg (leaf.kind_ne_container c).symm
      rw [replaced_branch, nodes, List.flatMap_cons, kept, ← list cs ih]
      exact outline_singleton _
  | table header rows al info hheader hrows =>
      have kept : outlineAt leaf.kind f (.table header rows al info) = [.table none [] al info] :=
        if_neg leaf.kind_ne_table.symm
      have below : outline (header.bind (replaced leaf.kind f)).toList =
          (nodesOf header.toList).flatMap (outlineAt leaf.kind f) := by
        cases header with
        | none => rfl
        | some header =>
            rw [Option.bind_some, hheader header rfl, Option.toList_some, nodesOf, nodesOf,
              List.append_nil]
      rw [replaced_table, nodes_eq_cons, List.flatMap_cons, kept, children, nodesOf_append,
        List.flatMap_append, ← list rows hrows, ← below, ← outline_append]
      exact outline_singleton _

end Node

namespace Visit

open StageM

variable {k : Kind} {f : Node → Option Node} {o : Options} {v : Visit}

/-- The visit replaces each node of a kind by `f` and keeps every other. It may write records and change
the context, but what it gives for a node does not depend on them. -/
def Overrides (v : Visit) (o : Options) (k : Kind) (f : Node → Option Node) : Prop :=
  ∀ inLink n, (v o inLink n).Steady (.ok (Node.swap k f n))

/-- The stage that replaces the nodes of a kind by `f`. -/
def replacing (k : Kind) (f : Node → Option Node) : Visit := fun _ _ n => pure (Node.swap k f n)

theorem overrides_replacing (o : Options) (k : Kind) (f : Node → Option Node) :
    (replacing k f).Overrides o k f := fun _ _ => .pure _

theorem Overrides.ofLeaf {visit : Options → Bool → Leaf → Record → StageM (Option Node)}
    (isLeaf : ∃ l : Leaf, l.kind = k)
    (each : ∀ inLink l info, (visit o inLink l info).Steady (.ok (Node.swap k f (.leaf l info)))) :
    (Visit.ofLeaf visit).Overrides o k f := by
  intro inLink n
  cases n with
  | leaf l info => exact each inLink l info
  | branch c cs info =>
      rw [Node.swap_branch isLeaf]
      exact .pure _
  | table header rows al info =>
      rw [Node.swap_table isLeaf]
      exact .pure _

/-- A second stage runs over what the first leaves, if it leaves a tree. -/
def runNext (w : Visit) (o : Options) : Option Node → StageM (Option Node)
  | none => pure none
  | some n => w.run o n

theorem Overrides.run (h : v.Overrides o k f) (isLeaf : ∃ l : Leaf, l.kind = k) (n : Node) :
    (v.run o n).Steady (.ok (n.replaced k f)) := by
  have steady := Node.transform_steady h n false
  rwa [Node.transform_swap isLeaf] at steady

theorem Overrides.runNext (h : v.Overrides o k f) (isLeaf : ∃ l : Leaf, l.kind = k)
    (left : Option Node) : (v.runNext o left).Steady (.ok (left.bind (Node.replaced k f))) := by
  cases left with
  | none => exact .pure none
  | some n => exact h.run isLeaf n

/-- A stage that overrides the visit of a leaf kind maps every tree: it gives the tree with the leaves of the
kind replaced, in whose outline nothing else has changed. If they are replaced by leaves of the kind, then
another such stage after it does with it what one stage does that replaces by both. -/
theorem Overrides.maps_tree (isLeaf : ∃ l : Leaf, l.kind = k) (first : v.Overrides o k f) (n : Node) :
    (v.run o n).Steady (.ok (n.replaced k f)) ∧
      Node.outline (n.replaced k f).toList = n.nodes.flatMap (Node.outlineAt k f) ∧
      ∀ (w u : Visit) (g : Node → Option Node), w.Overrides o k g →
        (u.Overrides o k fun n => (f n).bind g) →
        (∀ n m, n.kind = k → f n = some m → m.kind = k) →
        (v.run o n >>= w.runNext o).Steady (.ok (n.replaced k fun n => (f n).bind g)) ∧
          (u.run o n).Steady (.ok (n.replaced k fun n => (f n).bind g)) := by
  refine ⟨first.run isLeaf n, Node.outline_replaced isLeaf n, fun w u g second both into => ?_⟩
  refine ⟨?_, both.run isLeaf n⟩
  rw [← Node.replaced_replaced isLeaf into]
  have next : ∀ m, (w.runNext o m).Steady (.ok (m.bind (Node.replaced k g))) := second.runNext isLeaf
  exact (first.run isLeaf n).bind next

end Visit

/-- Puts a text into upper case. -/
def Node.shouted : Node → Option Node
  | .leaf (.text content) _ => some (.ofText (String.ofList (Text.upper content.toList)))
  | n => some n

theorem Transformation.overrides_shout (o : Options) :
    Transformation.shout.visit.Overrides o .text Node.shouted := by
  refine .ofLeaf ⟨.text "", rfl⟩ fun inLink l info => ?_
  cases l <;> exact .pure _

/-- Drops a cross and makes code of every other text. -/
def Node.uncrossed : Node → Option Node
  | .leaf (.text content) info => if content = "X" then none else some (.leaf (.code content) info)
  | n => some n

/-- A table with a link in its header, and with code beside a cross in its row. -/
def linkedTable : Node :=
  .branch .document
    [.table (some (.branch (.tableRow true)
        [.branch (.tableCell none) [.branch (.link "u" none) [.ofText "a"] []] []] []))
      [.branch (.tableRow false)
        [.branch (.tableCell none) [.leaf (.code "x") [], .ofText "x"] []] []]
      [none] []] []

theorem linkedTable_mapped :
    (∀ n m, n.kind = .text → Node.shouted n = some m → m.kind = .text) ∧
      (Transformation.shout.visit.run .defaults linkedTable >>=
          (Visit.replacing .text Node.uncrossed).runNext .defaults).Steady
        (.ok (some (.branch .document
          [.table (some (.branch (.tableRow true)
              [.branch (.tableCell none) [.branch (.link "u" none) [.leaf (.code "A") []] []] []] []))
            [.branch (.tableRow false) [.branch (.tableCell none) [.leaf (.code "x") []] []] []]
            [none] []] []))) := by
  have into : ∀ n m, n.kind = .text → Node.shouted n = some m → m.kind = .text := by
    intro n m isText found
    obtain ⟨l, info, rfl⟩ := Node.exists_leaf_of_kind ⟨.text "", rfl⟩ isText
    cases l with
    | text content => exact Option.some.inj found ▸ rfl
    | _ => cases isText
  have maps := Visit.Overrides.maps_tree ⟨.text "", rfl⟩ (Transformation.overrides_shout .defaults)
    linkedTable
  exact ⟨into, (maps.2.2 _ _ _ (Visit.overrides_replacing _ _ Node.uncrossed)
    (Visit.overrides_replacing _ _ _) into).1⟩

end NoteMarkup
