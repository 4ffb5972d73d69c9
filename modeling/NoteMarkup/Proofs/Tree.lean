import Mathlib.Data.List.Forall2
import NoteMarkup.Node.Children
import NoteMarkup.Node.Walk
import NoteMarkup.Proofs.Run

/-! Induction over trees, and what a transformation of a tree keeps. A transformation visits a node
whose children are replaced already, so the rules here hand the visit the relation between the old
children and the new ones. -/

namespace NoteMarkup.Node

/-- To prove a property of every tree, prove it of a node from that of its children. -/
@[elab_as_elim]
theorem induct {P : Node → Prop} (leaf : ∀ l info, P (.leaf l info))
    (branch : ∀ c cs info, (∀ n ∈ cs, P n) → P (.branch c cs info))
    (table : ∀ header rows al info, (∀ n ∈ header, P n) → (∀ n ∈ rows, P n) →
      P (.table header rows al info)) (n : Node) : P n := by
  refine @Node.rec P (fun ns => ∀ n ∈ ns, P n) (fun h => ∀ n ∈ h, P n) leaf branch table ?_ ?_ ?_ ?_ n
  · intro n member
    cases member
  · intro n ns hn hns m member
    rcases List.mem_cons.mp member with rfl | later
    · exact hn
    · exact hns m later
  · intro n member
    cases member
  · intro n hn m member
    cases member
    exact hn

/-- The same, with the children of any node as one list. -/
theorem induct_children {P : Node → Prop} (step : ∀ n, (∀ c ∈ n.children, P c) → P n) (n : Node) :
    P n := by
  induction n using induct with
  | leaf l info => exact step _ nofun
  | branch c cs info ih => exact step _ ih
  | table header rows al info hheader hrows =>
      refine step _ fun c member => ?_
      rcases List.mem_append.mp member with first | later
      · exact hheader c (Option.mem_toList.mp first)
      · exact hrows c later

theorem mem_nodesOf {m : Node} {ns : List Node} : m ∈ nodesOf ns ↔ ∃ n ∈ ns, m ∈ n.nodes := by
  induction ns with
  | nil => simp [nodesOf]
  | cons n ns ih => simp [nodesOf, ih]

theorem nodesOf_append (ns ms : List Node) : nodesOf (ns ++ ms) = nodesOf ns ++ nodesOf ms := by
  induction ns with
  | nil => rfl
  | cons n ns ih => rw [List.cons_append, nodesOf, nodesOf, ih, List.append_assoc]

theorem nodes_eq_cons (n : Node) : n.nodes = n :: nodesOf n.children := by
  cases n with
  | leaf l info => rfl
  | branch c cs info => rfl
  | table header rows al info => cases header <;> rfl

theorem nodesOf_singleton (n : Node) : nodesOf [n] = n :: nodesOf n.children := by
  rw [nodesOf, nodesOf, List.append_nil, nodes_eq_cons]

/-- A node of a tree is its root or a node of a child. -/
theorem mem_nodes {m n : Node} : m ∈ n.nodes ↔ m = n ∨ ∃ c ∈ n.children, m ∈ c.nodes := by
  cases n with
  | leaf l info => simp [nodes, children]
  | branch c cs info => simp [nodes, children, mem_nodesOf]
  | table header rows al info => cases header <;> simp [nodes, children, mem_nodesOf]

theorem self_mem_nodes (n : Node) : n ∈ n.nodes := mem_nodes.mpr (.inl rfl)

theorem child_mem_nodes {c m n : Node} (h : m ∈ n.nodes) (hc : c ∈ m.children) : c ∈ n.nodes := by
  induction n using induct_children with
  | step n ih =>
      rcases mem_nodes.mp h with rfl | ⟨k, hk, below⟩
      · exact mem_nodes.mpr (.inr ⟨c, hc, c.self_mem_nodes⟩)
      · exact mem_nodes.mpr (.inr ⟨k, hk, ih k hk below⟩)

/-- Every node of the tree has the property. -/
def All (P : Node → Prop) (n : Node) : Prop := ∀ m ∈ n.nodes, P m

section All

variable {P Q : Node → Prop} {n : Node}

theorem all_iff : All P n ↔ P n ∧ ∀ c ∈ n.children, All P c := by
  constructor
  · intro h
    refine ⟨h n n.self_mem_nodes, ?_⟩
    intro c hc m hm
    exact h m (mem_nodes.mpr (.inr ⟨c, hc, hm⟩))
  · rintro ⟨self, below⟩ m hm
    rcases mem_nodes.mp hm with rfl | ⟨c, hc, hm⟩
    · exact self
    · exact below c hc m hm

theorem All.self (h : All P n) : P n := h n n.self_mem_nodes

theorem All.child (h : All P n) {c : Node} (hc : c ∈ n.children) : All P c := (all_iff.mp h).2 c hc

theorem all_leaf {l : Leaf} {info : Record} : All P (.leaf l info) ↔ P (.leaf l info) := by
  rw [all_iff]
  simp [children]

theorem all_branch {c : Container} {cs : List Node} {info : Record} :
    All P (.branch c cs info) ↔ P (.branch c cs info) ∧ ∀ n ∈ cs, All P n := all_iff

theorem all_table {header : Option Node} {rows : List Node} {al : List (Option String)}
    {info : Record} : All P (.table header rows al info) ↔
      P (.table header rows al info) ∧ (∀ n ∈ header, All P n) ∧ ∀ n ∈ rows, All P n := by
  rw [all_iff]
  cases header <;> simp [children]

end All

/-- To prove a property of every tree, prove it of a node from that of all the nodes below. -/
@[elab_as_elim]
theorem induct_below {P : Node → Prop} (step : ∀ n, (∀ c ∈ n.children, All P c) → P n) (n : Node) :
    P n := by
  have all : All P n := by
    induction n using induct_children with
    | step n ih => exact all_iff.mpr ⟨step n ih, ih⟩
  exact all.self

@[simp] theorem kind_withInfo (n : Node) (info : Record) : (n.withInfo info).kind = n.kind := by
  cases n <;> rfl

@[simp] theorem info_withInfo (n : Node) (info : Record) : (n.withInfo info).info = info := by
  cases n <;> rfl

@[simp] theorem children_withInfo (n : Node) (info : Record) :
    (n.withInfo info).children = n.children := by
  cases n <;> rfl

@[simp] theorem withInfo_info (n : Node) : n.withInfo n.info = n := by
  cases n <;> rfl

@[simp] theorem withInfo_withInfo (n : Node) (i j : Record) :
    (n.withInfo i).withInfo j = n.withInfo j := by
  cases n <;> rfl

theorem exists_of_mem_right {α β : Type} {R : α → β → Prop} {as : List α} {bs : List β}
    (h : List.Forall₂ R as bs) {b : β} (hb : b ∈ bs) : ∃ a ∈ as, R a b := by
  induction h with
  | nil => cases hb
  | cons hr _ ih =>
      rcases List.mem_cons.mp hb with rfl | later
      · exact ⟨_, List.mem_cons_self, hr⟩
      · obtain ⟨a, ha, related⟩ := ih later
        exact ⟨a, List.mem_cons_of_mem _ ha, related⟩

/-- The second node is the first with every child replaced by one that `R` relates to it. -/
inductive Renewed (R : Node → Node → Prop) : Node → Node → Prop
  | leaf (l : Leaf) (info : Record) : Renewed R (.leaf l info) (.leaf l info)
  | branch (c : Container) (info : Record) {cs new : List Node} : List.Forall₂ R cs new →
      Renewed R (.branch c cs info) (.branch c new info)
  | table (al : List (Option String)) (info : Record) {header header' : Option Node}
      {rows new : List Node} : Option.Rel R header header' → List.Forall₂ R rows new →
      Renewed R (.table header rows al info) (.table header' new al info)

namespace Renewed

variable {R : Node → Node → Prop} {n n' : Node}

theorem kind (h : Renewed R n n') : n'.kind = n.kind := by
  cases h <;> rfl

theorem info (h : Renewed R n n') : n'.info = n.info := by
  cases h <;> rfl

theorem children (h : Renewed R n n') : List.Forall₂ R n.children n'.children := by
  cases h with
  | leaf => exact .nil
  | branch _ _ related => exact related
  | table _ _ header rows =>
      cases header with
      | none => exact rows
      | some first => exact .cons first rows

theorem eq_of_children (h : Renewed R n n') (same : n'.children = n.children) : n' = n := by
  cases h with
  | leaf => rfl
  | branch => exact congrArg (Node.branch _ · _) same
  | table _ _ header rows =>
      cases header with
      | none => exact congrArg (Node.table none · _ _) same
      | some =>
          obtain ⟨rfl, rfl⟩ := List.cons.inj same
          rfl

theorem imp {S : Node → Node → Prop} (h : Renewed R n n') (imp : ∀ n m, R n m → S n m) :
    Renewed S n n' := by
  cases h with
  | leaf l info => exact .leaf l info
  | branch c info related => exact .branch c info (related.imp imp)
  | table al info header rows =>
      refine .table al info ?_ (rows.imp imp)
      cases header with
      | none => exact .none
      | some related => exact .some (imp _ _ related)

/-- If nothing has changed, every child is related to itself. -/
theorem of_self (h : Renewed R n n) : ∀ c ∈ n.children, R c c := by
  cases n with
  | leaf l info => nofun
  | branch c cs info =>
      cases h with
      | branch _ _ related => exact List.forall₂_same.mp related
  | table header rows al info =>
      cases h with
      | table _ _ ofHeader ofRows =>
          intro c hc
          rcases List.mem_append.mp hc with first | later
          · cases ofHeader with
            | none => cases first
            | some related => exact List.mem_singleton.mp first ▸ related
          · exact List.forall₂_same.mp ofRows c later

theorem exists_child (h : Renewed R n n') {c : Node} (hc : c ∈ n'.children) :
    ∃ b ∈ n.children, R b c := by
  cases h with
  | leaf => cases hc
  | branch _ _ related => exact exists_of_mem_right related hc
  | table _ _ header rows =>
      rcases List.mem_append.mp hc with first | later
      · cases header with
        | none => cases first
        | some hr =>
            cases List.mem_singleton.mp first
            exact ⟨_, List.mem_append_left _ List.mem_cons_self, hr⟩
      · obtain ⟨b, hb, hr⟩ := exists_of_mem_right rows later
        exact ⟨b, List.mem_append_right _ hb, hr⟩

end Renewed

/-- What each visit does to a node whose children are done, the whole transformation does to a tree.
`P` holds of the nodes of the source, and `R` relates a node of the source to its replacement. -/
theorem transform_yields {P : Node → Prop} {R : Node → Node → Prop} {stuck : Prop}
    {f : Bool → Node → StageM (Option Node)}
    (visit : ∀ inLink n n' r, P n → Renewed R n n' →
      (f inLink n').Yields r (fun k _ => ∃ m, k = some m ∧ R n m) stuck)
    (n : Node) : ∀ inLink r, All P n →
      (n.transform f inLink).Yields r (fun k _ => ∃ m, k = some m ∧ R n m) stuck := by
  -- what holds of each node of a list holds of the list
  have list : ∀ ns : List Node, (∀ n ∈ ns, ∀ inLink r, All P n →
      (n.transform f inLink).Yields r (fun k _ => ∃ m, k = some m ∧ R n m) stuck) →
      (∀ n ∈ ns, All P n) → ∀ inLink r,
      (transformAll f inLink ns).Yields r (fun new _ => List.Forall₂ R ns new) stuck := by
    intro ns each all inLink
    induction ns with
    | nil =>
        intro r
        exact .pure .nil
    | cons n ns ih =>
        intro r
        rw [transformAll]
        refine (each n List.mem_cons_self inLink r (all n List.mem_cons_self)).bind ?_
        rintro _ s ⟨m, rfl, hm⟩
        refine (ih (fun k hk => each k (List.mem_cons_of_mem _ hk))
          (fun k hk => all k (List.mem_cons_of_mem _ hk)) s).bind ?_
        intro rest s hrest
        exact .pure (.cons hm hrest)
  induction n using induct with
  | leaf l info =>
      intro inLink r all
      exact visit inLink _ _ r all.self (.leaf l info)
  | branch c cs info ih =>
      intro inLink r all
      obtain ⟨self, below⟩ := all_branch.mp all
      rw [transform]
      exact (list cs ih below _ r).bind fun new s related =>
        visit inLink _ _ s self (.branch c info related)
  | table header rows al info hheader hrows =>
      intro inLink r all
      obtain ⟨self, ofHeader, ofRows⟩ := all_table.mp all
      cases header with
      | none =>
          rw [transform]
          exact (list rows hrows ofRows _ r).bind fun new s related =>
            visit inLink _ _ s self (.table al info .none related)
      | some header =>
          rw [transform]
          refine (list rows hrows ofRows _ r).bind fun new s related => ?_
          refine (hheader header rfl inLink s (ofHeader header rfl)).bind ?_
          rintro _ s ⟨m, rfl, hm⟩
          exact visit inLink _ _ s self (.table al info (.some hm) related)

/-- A transformation leaves a tree and the state alone if every visit does. -/
theorem transform_fixed {P : Node → Prop} {f : Bool → Node → StageM (Option Node)} {r : Run}
    (visit : ∀ inLink n, P n → (f inLink n).outcome r = (.ok (some n), r)) (n : Node) :
    ∀ inLink, All P n → (n.transform f inLink).outcome r = (.ok (some n), r) := by
  have list : ∀ ns : List Node,
      (∀ n ∈ ns, ∀ inLink, All P n → (n.transform f inLink).outcome r = (.ok (some n), r)) →
      (∀ n ∈ ns, All P n) → ∀ inLink, (transformAll f inLink ns).outcome r = (.ok ns, r) := by
    intro ns each all inLink
    induction ns with
    | nil => rfl
    | cons n ns ih =>
        rw [transformAll, StageM.outcome_bind_ok
          (each n List.mem_cons_self inLink (all n List.mem_cons_self)), StageM.outcome_bind_ok
          (ih (fun k hk => each k (List.mem_cons_of_mem _ hk))
            fun k hk => all k (List.mem_cons_of_mem _ hk))]
        rfl
  induction n using induct with
  | leaf l info =>
      intro inLink all
      exact visit inLink _ all.self
  | branch c cs info ih =>
      intro inLink all
      obtain ⟨self, below⟩ := all_branch.mp all
      rw [transform, StageM.outcome_bind_ok (list cs ih below _)]
      exact visit inLink _ self
  | table header rows al info hheader hrows =>
      intro inLink all
      obtain ⟨self, ofHeader, ofRows⟩ := all_table.mp all
      cases header with
      | none =>
          rw [transform, StageM.outcome_bind_ok (list rows hrows ofRows _)]
          exact visit inLink _ self
      | some header =>
          rw [transform, StageM.outcome_bind_ok (list rows hrows ofRows _),
            StageM.outcome_bind_ok (hheader header rfl inLink (ofHeader header rfl))]
          exact visit inLink _ self

/-- A transformation ends in one way if every visit does. -/
theorem transform_steady {f : Bool → Node → StageM (Option Node)}
    {g : Bool → Node → Except Fault (Option Node)} (visit : ∀ inLink n, (f inLink n).Steady (g inLink n))
    (n : Node) : ∀ inLink, (n.transform f inLink).Steady (n.transform g inLink) := by
  have list : ∀ ns : List Node, (∀ n ∈ ns, ∀ inLink,
      (n.transform f inLink).Steady (n.transform g inLink)) →
      ∀ inLink, (transformAll f inLink ns).Steady (transformAll g inLink ns) := by
    intro ns each inLink
    induction ns with
    | nil => exact .pure []
    | cons n ns ih =>
        rw [transformAll, transformAll]
        refine (each n List.mem_cons_self inLink).bind fun new => ?_
        exact (ih fun k hk => each k (List.mem_cons_of_mem _ hk)).bind fun rest => .pure _
  induction n using induct with
  | leaf l info => exact fun inLink => visit inLink _
  | branch c cs info ih =>
      intro inLink
      rw [transform, transform]
      exact (list cs ih _).bind fun new => visit inLink _
  | table header rows al info hheader hrows =>
      intro inLink
      cases header with
      | none =>
          rw [transform, transform]
          exact (list rows hrows _).bind fun new => visit inLink _
      | some header =>
          rw [transform, transform]
          refine (list rows hrows _).bind fun new => ?_
          exact (hheader header rfl inLink).bind fun first => visit inLink _

end NoteMarkup.Node
