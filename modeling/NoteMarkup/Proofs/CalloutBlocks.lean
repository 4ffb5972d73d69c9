import NoteMarkup.Proofs.Visits

/-! What the callout stage does to the blocks of a tree. Every quote that opens a callout is rebuilt once
and remembers its directive. In the order of the tree the opening paragraph gives way to the title block
and the paragraph of the remaining lines, and every other block stays where it is. -/

namespace NoteMarkup

def Kind.isBlock : Kind → Bool
  | .document | .heading | .paragraph | .codeBlock | .blockQuote | .list | .listItem | .table
  | .tableRow | .tableCell | .thematicBreak | .htmlBlock => true
  | _ => false

namespace Node

mutual

/-- A node with its own fields and inline content, without the blocks in it. -/
def bare : Node → Node
  | .leaf l info => .leaf l info
  | .branch c cs info => .branch c (bareAll cs) info
  | .table none rows al info => .table none (bareAll rows) al info
  | .table (some header) rows al info =>
    .table (if header.kind.isBlock then none else some (bare header)) (bareAll rows) al info

/-- The inline nodes of a list, each without the blocks in it. -/
def bareAll : List Node → List Node
  | [] => []
  | n :: ns => if n.kind.isBlock then bareAll ns else bare n :: bareAll ns

end

def listed (n : Node) : Bool := n.kind.isBlock && n.kind != .blockQuote

/-- The blocks of a tree that are no quotes, in pre-order. -/
def blocks (n : Node) : List Node := (n.nodes.filter listed).map bare

def blocksOf (ns : List Node) : List Node := ((nodesOf ns).filter listed).map bare

variable {n n' m : Node} {ns ms : List Node} {R : Node → Node → Prop}

theorem blocksOf_cons (n : Node) (ns : List Node) : blocksOf (n :: ns) = blocks n ++ blocksOf ns := by
  rw [blocksOf, nodesOf, List.filter_append, List.map_append]
  rfl

theorem blocksOf_append (ns ms : List Node) : blocksOf (ns ++ ms) = blocksOf ns ++ blocksOf ms := by
  rw [blocksOf, nodesOf_append, List.filter_append, List.map_append]
  rfl

theorem blocks_eq (n : Node) :
    blocks n = if listed n then bare n :: blocksOf n.children else blocksOf n.children := by
  rw [blocks, nodes_eq_cons, List.filter_cons]
  split <;> rfl

/-- The second node has the kind of the first, and its own fields and inline content if it is no quote. -/
def SameBare (n m : Node) : Prop := m.kind = n.kind ∧ (n.kind ≠ .blockQuote → bare m = bare n)

theorem bareAll_congr (h : List.Forall₂ SameBare ns ms) : bareAll ms = bareAll ns := by
  induction h with
  | nil => rfl
  | @cons n m ns ms first _ ih =>
      obtain ⟨kind, same⟩ := first
      rw [bareAll, bareAll, kind, ih]
      split
      · rfl
      · next inline =>
          rw [same fun quote => inline (by rw [quote]; rfl)]

theorem Renewed.bare (h : Renewed SameBare n n') : bare n' = bare n := by
  cases h with
  | leaf => rfl
  | branch _ _ related => rw [Node.bare, Node.bare, bareAll_congr related]
  | table _ _ header rows =>
      cases header with
      | none => rw [Node.bare, Node.bare, bareAll_congr rows]
      | some first =>
          obtain ⟨kind, same⟩ := first
          rw [Node.bare, Node.bare, bareAll_congr rows, kind]
          split
          · rfl
          · next inline => rw [same fun quote => inline (by rw [quote]; rfl)]

/-- No block stands below the node. -/
def Inline (n : Node) : Prop := ∀ k ∈ nodesOf n.children, k.kind.isBlock = false

theorem bareAll_eq_self (inline : ∀ n ∈ ns, n.kind.isBlock = false) (same : ∀ n ∈ ns, bare n = n) :
    bareAll ns = ns := by
  induction ns with
  | nil => rfl
  | cons n ns ih =>
      rw [List.forall_mem_cons] at inline same
      rw [bareAll, inline.1, same.1, ih inline.2 same.2]
      rfl

theorem Inline.bare (h : Inline n) : bare n = n := by
  induction n using induct_children with
  | step n ih =>
      have kind : ∀ c ∈ n.children, c.kind.isBlock = false := fun c hc =>
        h c (mem_nodesOf.mpr ⟨c, hc, c.self_mem_nodes⟩)
      have same : ∀ c ∈ n.children, Node.bare c = c := fun c hc =>
        ih c hc fun k hk => h k (mem_nodesOf.mpr ⟨c, hc, by
          rw [nodes_eq_cons]; exact List.mem_cons_of_mem _ hk⟩)
      cases n with
      | leaf l info => rfl
      | branch c cs info =>
          have whole : bareAll cs = cs := bareAll_eq_self kind same
          rw [Node.bare, whole]
      | table header rows al info =>
          cases header with
          | none =>
              have whole : bareAll rows = rows := bareAll_eq_self kind same
              rw [Node.bare, whole]
          | some header =>
              obtain ⟨kind, kinds⟩ := List.forall_mem_cons.mp kind
              obtain ⟨same, sames⟩ := List.forall_mem_cons.mp same
              have whole : bareAll rows = rows := bareAll_eq_self kinds sames
              rw [Node.bare, whole, kind, same]
              rfl

theorem Inline.noQuote (h : Inline n) (kind : n.kind = .paragraph) :
    ∀ k ∈ n.nodes, k.kind ≠ .blockQuote := by
  intro k hk quote
  rw [nodes_eq_cons] at hk
  rcases List.mem_cons.mp hk with rfl | below
  · rw [kind] at quote
    cases quote
  · have block := h k below
    rw [quote] at block
    cases block

theorem Inline.blocks (h : Inline n) (kind : n.kind = .paragraph) : blocks n = [n] := by
  have below : blocksOf n.children = [] := by
    rw [blocksOf, List.filter_eq_nil_iff.mpr, List.map_nil]
    intro k hk
    rw [listed, h k hk, Bool.false_and]
    exact Bool.false_ne_true
  have self : listed n = true := by
    rw [listed, kind]
    rfl
  rw [blocks_eq, if_pos self, h.bare, below]

end Node

namespace Stage.Callouts

open Node

/-- What stands in the place of the opening paragraph of a callout. -/
def Opening.made (o : Opening) (title : String) : List Node :=
  Node.generatedBlock (Callout.titleMarkup ("<p>" ++ title ++ "</p>") o.directive.collapsible) ::
    if o.remaining.isEmpty then [] else [Node.paragraph [Node.ofText o.remaining]]

def remembered? : Node → Option Value
  | .branch .blockQuote _ info => info.get? calloutKey
  | _ => none

/-- The directive that a quote remembers, or else the one that it opens with. -/
def directiveOf? : Node → Option Value
  | .branch .blockQuote cs info =>
    (info.get? calloutKey).or ((opening? cs).map fun o => o.directive.toValue)
  | _ => none

/-- The title of a quote that opens a callout can be rendered, and attributes can be added to it. -/
def Renderable (q : Node) : Prop :=
  (∀ o, opening? q.children = some o →
    ∃ title, Html.ofInline (titleNodes o.directive o.siblings) = .ok title) ∧
  ∃ as, HasAttrs q.info as

/-- Blocks before and after the quotes of a list are rebuilt, in order. The opening paragraph of each
quote gives way to what is made of it, and every other block stays. -/
inductive Replaced : List Node → List Node → List Node → Prop
  | nil : Replaced [] [] []
  | keep (block : Node) {quotes before after : List Node} :
      Replaced quotes before after → Replaced quotes (block :: before) (block :: after)
  | rebuild {first : Node} {rest quotes before after : List Node} {info : Record} {o : Opening}
      {title : String} : opening? (first :: rest) = some o →
      Html.ofInline (titleNodes o.directive o.siblings) = .ok title → Replaced quotes before after →
      Replaced (.branch .blockQuote (first :: rest) info :: quotes) (first :: before)
        (o.made title ++ after)

theorem Replaced.append {quotes before after quotes' before' after' : List Node}
    (h : Replaced quotes before after) (h' : Replaced quotes' before' after') :
    Replaced (quotes ++ quotes') (before ++ before') (after ++ after') := by
  induction h with
  | nil => exact h'
  | keep block _ ih => exact .keep block ih
  | rebuild opened rendered _ ih =>
      rw [List.append_assoc]
      exact .rebuild opened rendered ih

variable {n n' m : Node} {ns ms : List Node}

/-- What a run relates a node of the source to. A node without quotes is kept as it is, which is what
lets a quote be told by its source when the blocks in it are done. -/
structure Restructured (n m : Node) : Prop where
  bare : SameBare n m
  intact : (∀ k ∈ n.nodes, k.kind ≠ .blockQuote) → m = n
  directives : m.nodes.filterMap remembered? = n.nodes.filterMap directiveOf?
  replaced : Replaced (n.nodes.filter opens) (blocks n) (blocks m)
  renderable : ∀ q ∈ n.nodes, opens q = true → Renderable q

namespace Restructured

variable (h : List.Forall₂ Restructured ns ms)

include h

theorem directivesOf : (nodesOf ms).filterMap remembered? = (nodesOf ns).filterMap directiveOf? := by
  induction h with
  | nil => rfl
  | cons first _ ih =>
      rw [nodesOf, nodesOf, List.filterMap_append, List.filterMap_append, first.directives, ih]

theorem replacedOf : Replaced ((nodesOf ns).filter opens) (blocksOf ns) (blocksOf ms) := by
  induction h with
  | nil => exact .nil
  | cons first _ ih =>
      rw [nodesOf, List.filter_append, blocksOf_cons, blocksOf_cons]
      exact first.replaced.append ih

theorem renderableOf : ∀ q ∈ nodesOf ns, opens q = true → Renderable q := by
  induction h with
  | nil => nofun
  | cons first _ ih =>
      rw [nodesOf, List.forall_mem_append]
      exact ⟨first.renderable, ih⟩

theorem intactOf (quotes : ∀ k ∈ nodesOf ns, k.kind ≠ .blockQuote) : ms = ns := by
  induction h with
  | nil => rfl
  | cons first _ ih =>
      rw [nodesOf, List.forall_mem_append] at quotes
      rw [first.intact quotes.1, ih quotes.2]

end Restructured

theorem opening?_eq_none (h : n.kind ≠ .paragraph) (rest : List Node) : opening? (n :: rest) = none := by
  cases opened : opening? (n :: rest) with
  | none => rfl
  | some o =>
      obtain ⟨content, textInfo, info, heq⟩ := opening?_eq_some opened
      obtain ⟨rfl, -⟩ := List.cons.inj heq
      exact absurd rfl h

/-- The blocks after the first do not tell whether a callout opens. -/
theorem opening?_cons (first : Node) (rest new : List Node) :
    opening? (first :: new) = (opening? (first :: rest)).map fun o => { o with rest := new } := by
  cases first with
  | leaf l info => rfl
  | table header rows al info => rfl
  | branch c ns info =>
      cases c with
      | paragraph =>
          cases ns with
          | nil => rfl
          | cons m siblings =>
              cases m with
              | leaf l textInfo =>
                  cases l with
                  | text content =>
                      change Option.map _ _ = Option.map _ (Option.map _ _)
                      rw [Option.map_map]
                      rfl
                  | _ => rfl
              | _ => rfl
      | _ => rfl

theorem not_opens_of_kind (h : n.kind ≠ .blockQuote) : opens n = false := by
  cases n with
  | leaf l info => rfl
  | table header rows al info => rfl
  | branch c cs info =>
      cases c with
      | blockQuote => exact absurd rfl h
      | _ => rfl

theorem directiveOf?_of_kind (h : n.kind ≠ .blockQuote) : directiveOf? n = none := by
  cases n with
  | leaf l info => rfl
  | table header rows al info => rfl
  | branch c cs info =>
      cases c with
      | blockQuote => exact absurd rfl h
      | _ => rfl

section NoQuote

variable (noQuote : ∀ k ∈ n.nodes, k.kind ≠ .blockQuote)

include noQuote

theorem filter_opens_eq_nil : n.nodes.filter opens = [] := by
  rw [List.filter_eq_nil_iff]
  intro k hk
  rw [not_opens_of_kind (noQuote k hk)]
  exact Bool.false_ne_true

theorem filterMap_directiveOf?_eq_nil : n.nodes.filterMap directiveOf? = [] := by
  rw [List.filterMap_eq_nil_iff]
  exact fun k hk => directiveOf?_of_kind (noQuote k hk)

end NoQuote

section Opening

variable {cs : List Node} {info : Record} {o : Opening} (unkeyed : info.has calloutKey = false)
  (opened : opening? cs = some o)

include unkeyed opened

theorem opens_of_opening : opens (.branch .blockQuote cs info) = true := by
  rw [opens, unkeyed, opened]
  rfl

theorem directiveOf?_of_opening :
    directiveOf? (.branch .blockQuote cs info) = some o.directive.toValue := by
  have unset : info.get? calloutKey = none := by simpa [Record.has] using unkeyed
  rw [directiveOf?, unset, opened]
  rfl

end Opening

/-- The paragraphs among the nodes hold inline nodes alone. -/
def Plain (ns : List Node) : Prop := ∀ n ∈ ns, n.kind = .paragraph → Inline n

theorem opening?_restructured (h : List.Forall₂ Restructured ns ms) (plain : Plain ns) :
    opening? ms = (opening? ns).map fun o => { o with rest := ms.tail } := by
  cases h with
  | nil => rfl
  | @cons n m ns ms first _ =>
      -- an opening paragraph holds no quote, so that it stands in the new list as it is
      by_cases kind : n.kind = .paragraph
      · rw [first.intact ((plain n List.mem_cons_self kind).noQuote kind)]
        exact opening?_cons n ns ms
      · rw [opening?_eq_none kind, opening?_eq_none (by rwa [first.bare.1])]
        rfl

theorem opens_restructured (renewed : Renewed Restructured n n') (plain : Plain n.children) :
    opens n' = opens n := by
  cases renewed with
  | leaf => rfl
  | table => rfl
  | branch c info related =>
      cases c with
      | blockQuote =>
          rw [opens, opens, opening?_restructured related plain, Option.isSome_map]
      | _ => rfl

theorem remembered?_of_closed (renewed : Renewed Restructured n n') (closed : opens n = false) :
    remembered? n' = directiveOf? n := by
  cases renewed with
  | leaf => rfl
  | table => rfl
  | @branch c info cs new related =>
      cases c with
      | blockQuote =>
          change info.get? calloutKey = (info.get? calloutKey).or _
          cases found : info.get? calloutKey with
          | some v => rfl
          | none =>
              have unkeyed : info.has calloutKey = false := by rw [Record.has, found]; rfl
              rw [opens, unkeyed, Bool.not_false, Bool.true_and] at closed
              rw [Option.isSome_eq_false_iff.mp closed |> Option.isNone_iff_eq_none.mp]
              rfl
      | _ => rfl

/-- A node that stays when the blocks in it are done. -/
theorem Restructured.keep (renewed : Renewed Restructured n n') (plain : Plain n.children)
    (closed : opens n' = false) : Restructured n n' := by
  have related := renewed.children
  have source : opens n = false := by rwa [← opens_restructured renewed plain]
  have bare : Node.bare n' = Node.bare n := (renewed.imp fun _ _ h => h.bare).bare
  constructor
  · exact ⟨renewed.kind, fun _ => bare⟩
  · intro quotes
    rw [nodes_eq_cons, List.forall_mem_cons] at quotes
    exact renewed.eq_of_children (Restructured.intactOf related quotes.2)
  · rw [nodes_eq_cons n, nodes_eq_cons n', List.filterMap_cons, List.filterMap_cons,
      remembered?_of_closed renewed source, Restructured.directivesOf related]
  · have same : listed n' = listed n := by rw [listed, listed, renewed.kind]
    rw [nodes_eq_cons n, List.filter_cons_of_neg (by rw [source]; decide), blocks_eq, blocks_eq, same,
      bare]
    split
    · exact .keep _ (Restructured.replacedOf related)
    · exact Restructured.replacedOf related
  · rw [nodes_eq_cons, List.forall_mem_cons]
    refine ⟨fun opened => ?_, Restructured.renderableOf related⟩
    rw [source] at opened
    cases opened

theorem body_eq (o : Opening) (title : String) :
    body o title = o.made title ++ if o.rest.isEmpty then [] else [wrapper o.rest] := by
  rw [body, Opening.made, List.append_assoc, List.cons_append]
  rfl

theorem directivesOf_body (o : Opening) (title : String) :
    (nodesOf (body o title)).filterMap remembered? = (nodesOf o.rest).filterMap remembered? := by
  have made : (nodesOf (o.made title)).filterMap remembered? = [] := by
    unfold Opening.made
    split <;> rfl
  rw [body_eq, nodesOf_append, List.filterMap_append, made, List.nil_append]
  split
  · next none => rw [List.isEmpty_iff.mp none]
  · rw [nodesOf_singleton]
    rfl

theorem blocksOf_body (o : Opening) (title : String) :
    blocksOf (body o title) = o.made title ++ blocksOf o.rest := by
  have made : blocksOf (o.made title) = o.made title := by
    unfold Opening.made
    split <;> rfl
  rw [body_eq, blocksOf_append, made]
  split
  · next none => rw [List.isEmpty_iff.mp none]
  · rw [blocksOf, nodesOf_singleton]
    rfl

/-- A quote that opens a callout when its blocks are done opened one before. -/
theorem opened_before {o : Opening} (related : List.Forall₂ Restructured ns ms) (plain : Plain ns)
    (opened : opening? ms = some o) :
    ∃ first rest, ns = first :: rest ∧ first.kind = .paragraph ∧
      opening? (first :: rest) = some { o with rest } ∧ List.Forall₂ Restructured rest o.rest := by
  have source := opening?_restructured related plain
  rw [opened] at source
  cases related with
  | nil => cases opened
  | @cons first first' rest rest' ofFirst ofRest =>
      obtain ⟨before, opensBefore, rfl⟩ := Option.map_eq_some_iff.mp source.symm
      obtain ⟨content, textInfo, info, shape⟩ := opening?_eq_some opensBefore
      obtain ⟨rfl, rfl⟩ := List.cons.inj shape
      exact ⟨_, _, rfl, rfl, opensBefore, ofRest⟩

/-- A callout whose blocks are done. -/
theorem Restructured.rebuild {first : Node} {rest : List Node} {info as : Record} {o : Opening}
    {title : String} (inline : Inline first) (kind : first.kind = .paragraph)
    (related : List.Forall₂ Restructured rest o.rest) (unkeyed : info.has calloutKey = false)
    (opened : opening? (first :: rest) = some { o with rest })
    (rendered : Html.ofInline (titleNodes o.directive o.siblings) = .ok title)
    (has : HasAttrs info as) :
    Restructured (.branch .blockQuote (first :: rest) info)
      ((Node.branch .blockQuote (body o title) (info.set calloutKey o.directive.toValue)).styled as
        o.directive.attributes) := by
  have noQuote := inline.noQuote kind
  constructor
  · exact ⟨rfl, fun other => absurd rfl other⟩
  · intro quotes
    exact absurd rfl (quotes _ (self_mem_nodes _))
  · have remembers : remembered? ((Node.branch .blockQuote (body o title)
        (info.set calloutKey o.directive.toValue)).styled as o.directive.attributes) =
        some o.directive.toValue := get?_calloutKey _ _ _
    rw [nodes_eq_cons, nodes, List.filterMap_cons_some remembers,
      List.filterMap_cons_some (directiveOf?_of_opening unkeyed opened), nodesOf,
      List.filterMap_append, filterMap_directiveOf?_eq_nil noQuote]
    refine congrArg _ ((directivesOf_body o title).trans ?_)
    exact Restructured.directivesOf related
  · have before : blocks (.branch .blockQuote (first :: rest) info) = first :: blocksOf rest := by
      change blocksOf (first :: rest) = _
      rw [blocksOf_cons, inline.blocks kind]
      rfl
    have after : blocks ((Node.branch .blockQuote (body o title)
        (info.set calloutKey o.directive.toValue)).styled as o.directive.attributes) =
        o.made title ++ blocksOf o.rest := blocksOf_body o title
    rw [nodes, List.filter_cons_of_pos (opens_of_opening unkeyed opened), nodesOf, List.filter_append,
      filter_opens_eq_nil noQuote, before, after]
    exact .rebuild (o := { o with rest }) opened rendered (Restructured.replacedOf related)
  · rw [nodes, List.forall_mem_cons, nodesOf, List.forall_mem_append]
    refine ⟨fun _ => ⟨?_, as, has⟩, ?_, Restructured.renderableOf related⟩
    · intro again openedAgain
      rw [children, opened] at openedAgain
      cases openedAgain
      exact ⟨title, rendered⟩
    · intro q hq opensFirst
      rw [not_opens_of_kind (noQuote q hq)] at opensFirst
      cases opensFirst

variable {o : Options} {inLink : Bool} {r : Run}

/-- A visit stops only at a callout that cannot be made. -/
theorem visit_rewrites {stuck : Prop} (stops : opens n = true → ¬ Renderable n → stuck) :
    Visited (visit o inLink n) r (Rewrites n) stuck := by
  cases opened : opens n with
  | false =>
      have stays := visit_of_not_opens (o := o) opened inLink r
      constructor
      · intro k s done
        rw [stays] at done
        cases done
        exact ⟨n, rfl, .keep opened⟩
      · intro e s failed
        rw [stays] at failed
        cases failed
      · rw [stays]
        exact .refl _
  | true =>
      refine visit_yields ?_ fun unstyled => stops opened fun renderable => unstyled renderable.2
      rintro cs opening e rfl opening failed
      refine stops opened fun renderable => ?_
      obtain ⟨title, rendered⟩ := renderable.1 _ opening
      rw [failed] at rendered
      cases rendered

theorem Renderable.of_renewed (renewed : Renewed Restructured n n') (plain : Plain n.children)
    (h : Renderable n) : Renderable n' := by
  refine ⟨fun o opened => ?_, renewed.info ▸ h.2⟩
  obtain ⟨first, rest, shape, -, opensBefore, -⟩ := opened_before renewed.children plain opened
  exact h.1 { o with rest } (shape ▸ opensBefore)

theorem Restructured.of_rewrites (renewed : Renewed Restructured n n') (plain : Plain n.children)
    (h : Rewrites n' m) : Restructured n m := by
  cases h with
  | keep closed => exact .keep renewed plain closed
  | rebuild unkeyed opened rendered has =>
      cases renewed with
      | branch _ _ related =>
          obtain ⟨first, rest, rfl, kind, opensBefore, related⟩ := opened_before related plain opened
          exact .rebuild (plain first List.mem_cons_self kind) kind related unkeyed opensBefore rendered
            has

theorem run_restructured {d : Node} (plain : Plain d.nodes) :
    Visited (visit.run o d) r (Restructured d) (¬ ∀ q ∈ d.nodes, opens q = true → Renderable q) := by
  refine transform_yields (P := (· ∈ d.nodes)) ?_ d false r fun _ member => member
  intro inLink n n' r member renewed
  have plain : Plain n.children := fun c hc => plain c (child_mem_nodes member hc)
  refine (visit_rewrites fun opened unmade every => unmade ?_).imp fun m rewritten =>
    .of_rewrites renewed plain rewritten
  rw [opens_restructured renewed plain] at opened
  exact (every n member opened).of_renewed renewed plain

/-- A run over a tree whose paragraphs hold inline nodes alone. It gives a tree exactly if every
callout can be made. Then the quotes that remember a directive are those that did or that opened a
callout, in order, and the other blocks are those of the source, except that what is made of a callout
stands in the place of its opening paragraph. -/
theorem restructured_once (o : Options) (d : Node) (r : Run) (plain : Plain d.nodes) :
    ((∃ m s, (visit.run o d).outcome r = (.ok (some m), s)) ↔
      ∀ q ∈ d.nodes, opens q = true → Renderable q) ∧
    ∀ k s, (visit.run o d).outcome r = (.ok k, s) → ∃ m, k = some m ∧
      m.nodes.filterMap remembered? = d.nodes.filterMap directiveOf? ∧
      Replaced (d.nodes.filter opens) (blocks d) (blocks m) := by
  have run := run_restructured (o := o) (r := r) plain
  refine ⟨⟨?_, ?_⟩, ?_⟩
  · rintro ⟨m, s, outcome⟩
    obtain ⟨_, ⟨⟩, restructured⟩ := run.ok _ _ outcome
    exact restructured.renderable
  · intro renderable
    obtain ⟨_, s, outcome, m, rfl, -⟩ :=
      StageM.Yields.exists_ok ⟨run.ok, fun e s stops => run.error e s stops renderable, run.quiet⟩
    exact ⟨m, s, outcome⟩
  · intro k s outcome
    obtain ⟨m, rfl, restructured⟩ := run.ok _ _ outcome
    exact ⟨m, rfl, restructured.directives, restructured.replaced⟩

/-- A quote that has been rebuilt already, and a callout in a list with a table and another in it. -/
def mixedCallouts : Node :=
  .branch .document [
    .branch .blockQuote [Node.paragraph [Node.ofText "[!note] A"]] [(calloutKey, .bool true)],
    .branch (.list false 1 true) [.branch (.listItem none) [
      .branch .blockQuote [Node.paragraph [Node.ofText "[!tip] B\nC"],
        .table (some (.branch (.tableRow true) [] [])) [.branch (.tableRow false) [] []] [] [],
        .branch .blockQuote [Node.paragraph [Node.ofText "[!bug]"]] []] []] []] []] []

theorem mixedCallouts_restructured :
    Plain mixedCallouts.nodes ∧
      ∃ m s, (visit.run Options.defaults mixedCallouts).outcome ⟨Context.new "n" none, []⟩ =
          (.ok (some m), s) ∧
        (m.nodes.filterMap remembered?).length = 3 ∧
        Replaced (mixedCallouts.nodes.filter opens) (blocks mixedCallouts) (blocks m) := by
  have plain : Plain mixedCallouts.nodes := by
    unfold Plain Inline
    decide
  refine ⟨plain, ?_⟩
  have done : ((visit.run Options.defaults mixedCallouts).outcome ⟨Context.new "n" none, []⟩).1.isOk =
      true := by decide +kernel
  rcases outcome : (visit.run Options.defaults mixedCallouts).outcome ⟨Context.new "n" none, []⟩ with
    ⟨e | k, s⟩
  · rw [outcome] at done
    cases done
  · obtain ⟨m, rfl, directives, replaced⟩ :=
      (restructured_once Options.defaults mixedCallouts _ plain).2 k s outcome
    exact ⟨m, s, rfl, directives ▸ by decide +kernel, replaced⟩

end Stage.Callouts

end NoteMarkup
