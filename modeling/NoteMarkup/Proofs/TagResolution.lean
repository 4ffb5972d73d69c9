import NoteMarkup.Proofs.DialectFree
import NoteMarkup.Proofs.FirstSeen
import NoteMarkup.Proofs.RawPasses

/-! What becomes of the tags of a tree. A tag turns into text if it is a number or stands inside a
link, and into a link otherwise; the slugs of the others are recorded. The stage is told by a flag
whether it is inside a link; here the flag is read off the links above a place in the tree. -/

namespace NoteMarkup

theorem Container.isLink_eq_kind (k : Container) : k.isLink = (k.kind == .link) := by
  cases k <;> rfl

namespace Node

variable {n k : Node} {i : Nat} {path : List Nat}

/-- One of the nodes on the way to a place is a link. -/
def LinkAbove (n : Node) (path : List Nat) : Prop :=
  ∃ above below k, path = above ++ below ∧ below ≠ [] ∧ n.at? above = some k ∧ k.kind = .link

theorem at?_cons : n.at? (i :: path) = n.children[i]?.bind fun c => c.at? path := rfl

theorem at?_append (n : Node) (above below : List Nat) :
    n.at? (above ++ below) = (n.at? above).bind fun k => k.at? below := by
  induction above generalizing n with
  | nil => rfl
  | cons i above ih =>
      rw [List.cons_append, at?_cons, at?_cons]
      cases n.children[i]? with
      | none => rfl
      | some c => exact ih c

theorem not_linkAbove_nil : ¬ n.LinkAbove [] := by
  rintro ⟨above, below, k, split, ne, -⟩
  exact ne (List.append_eq_nil_iff.mp split.symm).2

theorem linkAbove_cons {c : Node} (h : n.children[i]? = some c) :
    n.LinkAbove (i :: path) ↔ n.kind = .link ∨ c.LinkAbove path := by
  constructor
  · rintro ⟨above, below, k, split, ne, found, link⟩
    cases above with
    | nil =>
        cases found
        exact .inl link
    | cons j above =>
        obtain ⟨rfl, rfl⟩ := List.cons.inj split
        rw [at?_cons, h] at found
        exact .inr ⟨above, below, k, rfl, ne, found, link⟩
  · rintro (link | ⟨above, below, k, rfl, ne, found, link⟩)
    · exact ⟨[], i :: path, n, rfl, by simp, rfl, link⟩
    · refine ⟨i :: above, below, k, rfl, ne, ?_, link⟩
      rw [at?_cons, h]
      exact found

end Node

namespace Stage.Tags

open Node

variable {o : Options} {c d : Context} {n m : Node} {inLink : Bool} {slug value : String}

/-- What takes the place of a leaf. -/
def resolvedLeaf (c : Context) (inLink : Bool) (info : Record) : Leaf → Node
  | .tag value =>
    if inLink || TagText.isNumeric value then Node.ofText ("#" ++ value)
    else linkNode c (Slug.ofTag value)
  | l => .leaf l info

mutual

/-- The tree with its tags resolved. -/
def resolved (c : Context) (inLink : Bool) : Node → Node
  | .leaf l info => resolvedLeaf c inLink info l
  | .branch k cs info => .branch k (resolvedAll c (inLink || k.isLink) cs) info
  | .table none rows al info => .table none (resolvedAll c inLink rows) al info
  | .table (some header) rows al info =>
    .table (some (resolved c inLink header)) (resolvedAll c inLink rows) al info

/-- The trees of a list with their tags resolved. -/
def resolvedAll (c : Context) (inLink : Bool) : List Node → List Node
  | [] => []
  | n :: ns => resolved c inLink n :: resolvedAll c inLink ns

end

/-- The slug that a leaf gives to the record. -/
def slug? (inLink : Bool) : Leaf → Option String
  | .tag value => if inLink || TagText.isNumeric value then none else some (Slug.ofTag value)
  | _ => none

mutual

/-- The slugs of the tags that become links, in the order in which the stage meets the tags: those in
the header of a table come after those in its rows. -/
def met (inLink : Bool) : Node → List String
  | .leaf l _ => (slug? inLink l).toList
  | .branch k cs _ => metIn (inLink || k.isLink) cs
  | .table none rows _ _ => metIn inLink rows
  | .table (some header) rows _ _ => metIn inLink rows ++ met inLink header

/-- The slugs that are met in the trees of a list. -/
def metIn (inLink : Bool) : List Node → List String
  | [] => []
  | n :: ns => met inLink n ++ metIn inLink ns

end

theorem resolvedAll_eq_map (c : Context) (inLink : Bool) (ns : List Node) :
    resolvedAll c inLink ns = ns.map (resolved c inLink) := by
  induction ns with
  | nil => rfl
  | cons n ns ih => rw [resolvedAll, ih, List.map_cons]

theorem linkNode_congr (same : c.slug = d.slug) (slug : String) : linkNode c slug = linkNode d slug := by
  simp only [linkNode, Context.tagUrl, Context.baseUrl, same]

/-- Of the context only the slug of the note counts. -/
theorem resolved_congr (same : c.slug = d.slug) (inLink : Bool) (n : Node) :
    resolved c inLink n = resolved d inLink n := by
  have list (ns : List Node) (inLink : Bool)
      (each : ∀ n ∈ ns, ∀ inLink, resolved c inLink n = resolved d inLink n) :
      resolvedAll c inLink ns = resolvedAll d inLink ns := by
    rw [resolvedAll_eq_map, resolvedAll_eq_map]
    exact List.map_congr_left fun n hn => each n hn inLink
  induction n using induct generalizing inLink with
  | leaf l info =>
      cases l with
      | tag value => rw [resolved, resolved, resolvedLeaf, resolvedLeaf, linkNode_congr same]
      | _ => rfl
  | branch k cs info ih => rw [resolved, resolved, list cs _ fun n hn inLink => ih n hn inLink]
  | table header rows al info hheader hrows =>
      have body := list rows inLink fun n hn inLink => hrows n hn inLink
      cases header with
      | none => rw [resolved, resolved, body]
      | some header => rw [resolved, resolved, body, hheader header rfl]

theorem resolved_addTags (c : Context) (slugs : List String) :
    resolved (c.addTags slugs) = resolved c := by
  funext inLink n
  refine resolved_congr ?_ inLink n
  rw [Context.addTags_eq]

theorem resolvedAll_addTags (c : Context) (slugs : List String) :
    resolvedAll (c.addTags slugs) = resolvedAll c := by
  funext inLink ns
  rw [resolvedAll_eq_map, resolvedAll_eq_map, resolved_addTags]

theorem replace_outcome (inLink : Bool) (value : String) (c : Context) (log : Log.Records) :
    ∃ log', (replace inLink value).outcome ⟨c, log⟩ =
      (.ok (resolvedLeaf c inLink [] (.tag value)),
        ⟨c.addTags (slug? inLink (.tag value)).toList, log'⟩) := by
  unfold replace resolvedLeaf slug?
  by_cases text : (inLink || TagText.isNumeric value) = true
  · simp only [if_pos text]
    exact ⟨log, rfl⟩
  · simp only [if_neg text]
    obtain ⟨⟨c', log'⟩, registered, recorded⟩ := RawMarkup.register_outcome value ⟨c, log⟩
    refine ⟨log', ?_⟩
    dsimp only at recorded
    have same : c'.slug = c.slug := by rw [recorded, RawMarkup.slug_addTag]
    rw [StageM.outcome_bind_ok registered, StageM.outcome_bind_ok (StageM.outcome_context _),
      linkNode_congr same, recorded]
    rfl

theorem visit_leaf (l : Leaf) (info : Record) (inLink : Bool) (c : Context) (log : Log.Records) :
    ∃ log', (visit o inLink (.leaf l info)).outcome ⟨c, log⟩ =
      (.ok (some (resolvedLeaf c inLink info l)), ⟨c.addTags (slug? inLink l).toList, log'⟩) := by
  cases l with
  | tag value =>
      obtain ⟨log', replaced⟩ := replace_outcome inLink value c log
      refine ⟨log', ?_⟩
      change (some <$> replace inLink value).outcome ⟨c, log⟩ = _
      rw [StageM.map_eq_bind, StageM.outcome_bind_ok replaced]
      rfl
  | _ => exact ⟨log, rfl⟩

/-- The stage resolves the tags of a tree and records them in the order in which it meets them. -/
theorem transform_resolved (o : Options) (n : Node) : ∀ inLink c log, ∃ log',
    (n.transform (visit o) inLink).outcome ⟨c, log⟩ =
      (.ok (some (resolved c inLink n)), ⟨c.addTags (met inLink n), log'⟩) := by
  -- what holds of each node of a list holds of the list
  have list : ∀ ns : List Node, (∀ n ∈ ns, ∀ inLink c log, ∃ log',
        (n.transform (visit o) inLink).outcome ⟨c, log⟩ =
          (.ok (some (resolved c inLink n)), ⟨c.addTags (met inLink n), log'⟩)) →
      ∀ inLink c log, ∃ log', (transformAll (visit o) inLink ns).outcome ⟨c, log⟩ =
        (.ok (resolvedAll c inLink ns), ⟨c.addTags (metIn inLink ns), log'⟩) := by
    intro ns each inLink
    induction ns with
    | nil => exact fun c log => ⟨log, rfl⟩
    | cons n ns ih =>
        intro c log
        obtain ⟨first, later⟩ := List.forall_mem_cons.mp each
        obtain ⟨log₁, visited⟩ := first inLink c log
        obtain ⟨log₂, rest⟩ := ih later (c.addTags (met inLink n)) log₁
        refine ⟨log₂, ?_⟩
        rw [transformAll, StageM.outcome_bind_ok visited, StageM.outcome_bind_ok rest,
          resolvedAll_addTags, Context.addTags_addTags]
        rfl
  induction n using induct with
  | leaf l info => exact visit_leaf l info
  | branch k cs info ih =>
      intro inLink c log
      obtain ⟨log₁, children⟩ := list cs ih (inLink || k.isLink) c log
      refine ⟨log₁, ?_⟩
      rw [transform, StageM.outcome_bind_ok children]
      rfl
  | table header rows al info hheader hrows =>
      intro inLink c log
      obtain ⟨log₁, body⟩ := list rows hrows inLink c log
      cases header with
      | none =>
          refine ⟨log₁, ?_⟩
          rw [transform, StageM.outcome_bind_ok body]
          rfl
      | some header =>
          obtain ⟨log₂, head⟩ := hheader header rfl inLink (c.addTags (metIn inLink rows)) log₁
          refine ⟨log₂, ?_⟩
          rw [transform, StageM.outcome_bind_ok body, StageM.outcome_bind_ok head,
            resolved_addTags, Context.addTags_addTags]
          rfl

/-- The children of a node that is no leaf stand one to one in the result. -/
theorem children_resolved (c : Context) (inLink : Bool) (branching : n.children ≠ []) :
    (resolved c inLink n).children =
      n.children.map (resolved c (inLink || n.kind == .link)) := by
  cases n with
  | leaf l info => exact (branching rfl).elim
  | branch k cs info =>
      rw [resolved, children, resolvedAll_eq_map, Container.isLink_eq_kind]
      rfl
  | table header rows al info =>
      have plain : (inLink || (Node.table header rows al info).kind == .link) = inLink := Bool.or_false _
      cases header with
      | none => simp [resolved, children, resolvedAll_eq_map, plain]
      | some header => simp [resolved, children, resolvedAll_eq_map, plain]

theorem kind_resolved (c : Context) (inLink : Bool) (branching : n.children ≠ []) :
    (resolved c inLink n).kind = n.kind := by
  cases n with
  | leaf l info => exact (branching rfl).elim
  | branch k cs info => rfl
  | table header rows al info => cases header <;> rfl

/-- A place of the source is a place of the result. -/
theorem at?_resolved (c : Context) {path : List Nat} {k : Node} :
    ∀ {n : Node} (inLink : Bool), n.at? path = some k → ∃ inside,
      (resolved c inLink n).at? path = some (resolved c inside k) ∧
      (inside = true ↔ inLink = true ∨ n.LinkAbove path) := by
  induction path with
  | nil =>
      intro n inLink found
      cases found
      exact ⟨inLink, rfl, by simp [not_linkAbove_nil]⟩
  | cons i path ih =>
      intro n inLink found
      obtain ⟨child, hchild, below⟩ := Option.bind_eq_some_iff.mp (at?_cons ▸ found)
      have branching : n.children ≠ [] := by
        rintro none
        rw [none] at hchild
        cases hchild
      obtain ⟨inside, placed, above⟩ := ih (inLink || n.kind == .link) below
      refine ⟨inside, ?_, ?_⟩
      · rw [at?_cons, children_resolved c inLink branching, List.getElem?_map, hchild]
        exact placed
      · rw [above, linkAbove_cons hchild]
        simp [or_assoc]

/-- The slug of a tag somewhere in the tree that is no number and has no link above it. -/
def Linked (inLink : Bool) (n : Node) (slug : String) : Prop :=
  ∃ path value info, n.at? path = some (.leaf (.tag value) info) ∧ TagText.isNumeric value = false ∧
    ¬ (inLink = true ∨ n.LinkAbove path) ∧ slug = Slug.ofTag value

theorem linked_iff : Linked inLink n slug ↔
    (∃ value info, n = .leaf (.tag value) info ∧ TagText.isNumeric value = false ∧ inLink = false ∧
      slug = Slug.ofTag value) ∨
    ∃ child ∈ n.children, Linked (inLink || n.kind == .link) child slug := by
  constructor
  · rintro ⟨path, value, info, found, letters, outside, rfl⟩
    cases path with
    | nil =>
        cases found
        exact .inl ⟨value, info, rfl, letters, by simpa [not_linkAbove_nil] using outside, rfl⟩
    | cons i path =>
        obtain ⟨child, hchild, below⟩ := Option.bind_eq_some_iff.mp (at?_cons ▸ found)
        refine .inr ⟨child, List.mem_of_getElem? hchild, path, value, info, below, letters, ?_, rfl⟩
        rw [linkAbove_cons hchild] at outside
        simpa [or_assoc] using outside
  · rintro (⟨value, info, rfl, letters, outside, rfl⟩ |
      ⟨child, member, path, value, info, found, letters, outside, rfl⟩)
    · exact ⟨[], value, info, rfl, letters, by simp [outside, not_linkAbove_nil], rfl⟩
    · obtain ⟨i, hchild⟩ := List.mem_iff_getElem?.mp member
      refine ⟨i :: path, value, info, ?_, letters, ?_, rfl⟩
      · rw [at?_cons, hchild]
        exact found
      · rw [linkAbove_cons hchild]
        simpa [or_assoc] using outside

theorem mem_metIn {ns : List Node} : slug ∈ metIn inLink ns ↔ ∃ n ∈ ns, slug ∈ met inLink n := by
  induction ns with
  | nil => simp [metIn]
  | cons n ns ih => simp [metIn, ih]

theorem mem_met_iff : slug ∈ met inLink n ↔
    (∃ value info, n = .leaf (.tag value) info ∧ TagText.isNumeric value = false ∧ inLink = false ∧
      slug = Slug.ofTag value) ∨
    ∃ c ∈ n.children, slug ∈ met (inLink || n.kind == .link) c := by
  cases n with
  | leaf l info =>
      rw [met]
      cases l with
      | tag value =>
          have alone : slug? inLink (.tag value) = some slug ↔
              TagText.isNumeric value = false ∧ inLink = false ∧ slug = Slug.ofTag value := by
            rw [slug?]
            split <;> grind
          simp [children, alone]
      | _ => simp [slug?, children]
  | branch k cs info => simp [met, children, mem_metIn, kind, Container.isLink_eq_kind]
  | table header rows al info =>
      have plain : (inLink || (Node.table header rows al info).kind == .link) = inLink := Bool.or_false _
      cases header with
      | none => simp [met, children, mem_metIn, plain]
      | some header => simp [met, children, mem_metIn, plain, or_comm]

theorem mem_met (n : Node) : ∀ inLink, slug ∈ met inLink n ↔ Linked inLink n slug := by
  induction n using induct_children with
  | step n ih =>
      intro inLink
      rw [mem_met_iff, linked_iff]
      exact or_congr_right (exists_congr fun c => and_congr_right fun hc => ih c hc _)

/-- No tag is left. -/
theorem resolved_free (c : Context) (n : Node) : ∀ inLink, Free .tag (resolved c inLink n) := by
  have list (ns : List Node) (inLink : Bool)
      (each : ∀ n ∈ ns, ∀ inLink, Free .tag (resolved c inLink n)) :
      ∀ m ∈ resolvedAll c inLink ns, Free .tag m := by
    rw [resolvedAll_eq_map]
    intro m hm
    obtain ⟨n, hn, rfl⟩ := List.mem_map.mp hm
    exact each n hn inLink
  induction n using induct with
  | leaf l info =>
      intro inLink
      cases l with
      | tag value =>
          rw [resolved, resolvedLeaf]
          split
          · exact free_ofText rfl _
          · exact free_branch.mpr ⟨nofun, by simp [free_ofText (k := .tag) rfl]⟩
      | _ => exact free_leaf.mpr nofun
  | branch k cs info ih =>
      intro inLink
      exact free_branch.mpr ⟨by cases k <;> nofun, list cs _ ih⟩
  | table header rows al info hheader hrows =>
      intro inLink
      cases header with
      | none => exact all_table.mpr ⟨nofun, nofun, list rows _ hrows⟩
      | some header =>
          refine all_table.mpr ⟨nofun, ?_, list rows _ hrows⟩
          rintro _ ⟨⟩
          exact hheader header rfl inLink

/-- Where a link of the result has something below it, the source has a link too. -/
theorem linkAbove_of_resolved {path : List Nat} (there : (n.at? path).isSome)
    (above : (resolved c false n).LinkAbove path) : n.LinkAbove path := by
  obtain ⟨path, below, k, rfl, ne, found, link⟩ := above
  rw [at?_append] at there
  cases source : n.at? path with
  | none =>
      rw [source] at there
      cases there
  | some k' =>
      rw [source] at there
      have branching : k'.children ≠ [] := by
        cases below with
        | nil => exact (ne rfl).elim
        | cons i below =>
            rintro none
            simp [at?_cons, none] at there
      obtain ⟨inside, placed, -⟩ := at?_resolved c false source
      rw [found] at placed
      obtain rfl := Option.some.inj placed
      exact ⟨path, below, k', rfl, ne, source, (kind_resolved c inside branching).symm.trans link⟩

/-- The stage leaves no tag, makes a link of each tag that can be one and text of the others, and
adds to the record the slugs of its links and nothing else. -/
theorem tags_resolved (o : Options) (n : Node) (r : Run) (distinct : r.context.tags.Nodup) :
    ∃ m s, (visit.run o n).outcome r = (.ok (some m), s) ∧
      (∀ k ∈ m.nodes, k.kind ≠ .tag) ∧
      (∀ path value info, n.at? path = some (.leaf (.tag value) info) →
        (TagText.isNumeric value = true ∨ n.LinkAbove path →
          m.at? path = some (Node.ofText ("#" ++ value))) ∧
        (TagText.isNumeric value = false → ¬ n.LinkAbove path →
          m.at? path = some (.branch
            (.link (r.context.baseUrl ++ "/tags/" ++ Slug.ofTag value) none)
            [Node.ofText (Slug.ofTag value)]
            [(Node.attrsKey, .map [(.str "class", .list [.str "tag-link"])])]) ∧
          ¬ m.LinkAbove path)) ∧
      s.context = { r.context with tags := s.context.tags } ∧
      s.context.tags.Nodup ∧ r.context.tags <+: s.context.tags ∧
      ∀ slug, slug ∈ s.context.tags ↔ slug ∈ r.context.tags ∨
        ∃ path value info, n.at? path = some (.leaf (.tag value) info) ∧
          TagText.isNumeric value = false ∧ ¬ n.LinkAbove path ∧ slug = Slug.ofTag value := by
  obtain ⟨log, run⟩ := transform_resolved o n false r.context r.log
  have recorded : r.context.addTags (met false n) =
      { r.context with tags := r.context.tags ++ fresh r.context.tags (met false n) } :=
    Context.addTags_eq _ _
  refine ⟨_, _, run, resolved_free r.context n false, ?_, ?_⟩
  · intro path value info found
    obtain ⟨inside, placed, above⟩ := at?_resolved r.context false found
    rw [placed, resolved, resolvedLeaf]
    constructor
    · rintro (number | link)
      · rw [if_pos (by simp [number])]
      · rw [if_pos (by simp [above.mpr (.inr link)])]
    · intro letters outside
      have plain : inside = false := by simpa [outside] using above
      rw [if_neg (by simp [plain, letters])]
      exact ⟨rfl, mt (linkAbove_of_resolved (by rw [found]; rfl)) outside⟩
  · rw [recorded]
    refine ⟨rfl, ?_, List.prefix_append _ _, fun slug => ?_⟩
    · refine List.nodup_append.mpr ⟨distinct, nodup_fresh _ _, ?_⟩
      rintro old known new new' rfl
      exact (mem_fresh.mp new').2 known
    · have linked : slug ∈ met false n ↔ _ := mem_met n false
      rw [List.mem_append, mem_fresh, linked, Linked]
      simp only [Bool.false_eq_true, false_or]
      tauto

/-- A tag, a number, and a tag under emphasis in a link. -/
def taggedParagraph : Node :=
  Node.paragraph [.leaf (.tag "Plan") [], .leaf (.tag "2024") [],
    .branch (.link "/home" none) [.branch .emphasis [.leaf (.tag "done") []] []] []]

theorem taggedParagraph_resolved :
    ∃ m s, (visit.run Options.defaults taggedParagraph).outcome
        ⟨{ Context.new "n" none with tags := ["old"] }, []⟩ = (.ok (some m), s) ∧
      (m.at? [0]).map kind = some .link ∧ m.at? [1] = some (Node.ofText "#2024") ∧
      m.at? [2, 0, 0] = some (Node.ofText "#done") ∧
      "old" ∈ s.context.tags ∧ "plan" ∈ s.context.tags ∧ s.context.tags.Nodup := by
  obtain ⟨m, s, run, -, placed, -, distinct, old, mem⟩ := tags_resolved Options.defaults
    taggedParagraph ⟨{ Context.new "n" none with tags := ["old"] }, []⟩ (by decide)
  have letters : TagText.isNumeric "Plan" = false := by decide
  have slug : "plan" = Slug.ofTag "Plan" := by decide
  have outside : ¬ taggedParagraph.LinkAbove [0] := by
    rw [linkAbove_cons rfl]
    exact not_or.mpr ⟨nofun, not_linkAbove_nil⟩
  have inside : taggedParagraph.LinkAbove [2, 0, 0] := ⟨[2], [0, 0], _, rfl, nofun, rfl, rfl⟩
  refine ⟨m, s, run, ?_, (placed [1] "2024" [] rfl).1 (.inl (by decide)),
    (placed [2, 0, 0] "done" [] rfl).1 (.inr inside), old.subset List.mem_cons_self, ?_, distinct⟩
  · rw [((placed [0] "Plan" [] rfl).2 letters outside).1]
    rfl
  · exact (mem "plan").mpr (.inr ⟨[0], "Plan", [], rfl, letters, outside, slug⟩)

end Stage.Tags

end NoteMarkup
