import NoteMarkup.Proofs.TagResolution

/-! Tags in the order of the document. A reader meets the header of a table before its rows; the
stage visits the rows first. So the recorded order is the reader's unless a header and the rows under
it both bring tags that are new. -/

namespace NoteMarkup.Stage.Tags

open Node

variable {n : Node} {inLink : Bool} {slug : String} {seen : List String}

mutual

/-- The nodes of a tree in the order of the document, each with the flag whether it stands in a link. -/
def placed (inLink : Bool) : Node → List (Bool × Node)
  | .leaf l info => [(inLink, .leaf l info)]
  | .branch k cs info => (inLink, .branch k cs info) :: placedIn (inLink || k.isLink) cs
  | .table none rows al info => (inLink, .table none rows al info) :: placedIn inLink rows
  | .table (some header) rows al info =>
    (inLink, .table (some header) rows al info) :: (placed inLink header ++ placedIn inLink rows)

/-- The nodes of the trees of a list, in order. -/
def placedIn (inLink : Bool) : List Node → List (Bool × Node)
  | [] => []
  | n :: ns => placed inLink n ++ placedIn inLink ns

end

/-- The slug that a node gives to the record. -/
def slugOf? : Bool × Node → Option String
  | (inLink, .leaf l _) => slug? inLink l
  | _ => none

/-- The slugs of the tags that become links, in the order of the document. -/
def written (inLink : Bool) (n : Node) : List String := (placed inLink n).filterMap slugOf?

/-- The slugs that are written in the trees of a list. -/
def writtenIn (inLink : Bool) (ns : List Node) : List String := (placedIn inLink ns).filterMap slugOf?

theorem placed_nodes (n : Node) : ∀ inLink, (placed inLink n).map Prod.snd = n.nodes := by
  have list (ns : List Node) (inLink : Bool)
      (each : ∀ n ∈ ns, ∀ inLink, (placed inLink n).map Prod.snd = n.nodes) :
      (placedIn inLink ns).map Prod.snd = nodesOf ns := by
    induction ns with
    | nil => rfl
    | cons n ns ih =>
        obtain ⟨first, later⟩ := List.forall_mem_cons.mp each
        rw [placedIn, List.map_append, first, ih later, nodesOf]
  induction n using induct with
  | leaf l info => exact fun _ => rfl
  | branch k cs info ih =>
      intro inLink
      rw [placed, List.map_cons, list cs _ ih, nodes]
  | table header rows al info hheader hrows =>
      intro inLink
      cases header with
      | none => rw [placed, List.map_cons, list rows _ hrows, nodes]
      | some header =>
          rw [placed, List.map_cons, List.map_append, hheader header rfl, list rows _ hrows, nodes]

theorem mem_placedIn {ns : List Node} {p : Bool × Node} :
    p ∈ placedIn inLink ns ↔ ∃ n ∈ ns, p ∈ placed inLink n := by
  induction ns with
  | nil => simp [placedIn]
  | cons n ns ih => simp [placedIn, ih]

theorem mem_placed_iff {p : Bool × Node} : p ∈ placed inLink n ↔
    p = (inLink, n) ∨ ∃ c ∈ n.children, p ∈ placed (inLink || n.kind == .link) c := by
  cases n with
  | leaf l info => simp [placed, children]
  | branch k cs info => simp [placed, children, mem_placedIn, kind, Container.isLink_eq_kind]
  | table header rows al info =>
      have plain : (inLink || (Node.table header rows al info).kind == .link) = inLink := Bool.or_false _
      cases header <;> simp [placed, children, mem_placedIn, plain]

/-- The flag of a node tells whether there is a link above it. -/
theorem mem_placed (n : Node) {inside : Bool} {k : Node} : ∀ inLink, (inside, k) ∈ placed inLink n ↔
    ∃ path, n.at? path = some k ∧ (inside = true ↔ inLink = true ∨ n.LinkAbove path) := by
  induction n using induct_children with
  | step n ih =>
      intro inLink
      rw [mem_placed_iff]
      constructor
      · rintro (root | ⟨c, member, below⟩)
        · obtain ⟨rfl, rfl⟩ := Prod.mk.inj root
          exact ⟨[], rfl, by simp [not_linkAbove_nil]⟩
        · obtain ⟨path, found, above⟩ := (ih c member _).mp below
          obtain ⟨i, hc⟩ := List.mem_iff_getElem?.mp member
          refine ⟨i :: path, by rw [at?_cons, hc]; exact found, ?_⟩
          rw [above, linkAbove_cons hc]
          simp [or_assoc]
      · rintro ⟨path, found, above⟩
        cases path with
        | nil =>
            cases found
            refine .inl (Prod.ext (Bool.eq_iff_iff.mpr ?_) rfl)
            simpa [not_linkAbove_nil] using above
        | cons i path =>
            obtain ⟨c, hc, below⟩ := Option.bind_eq_some_iff.mp (at?_cons ▸ found)
            have member := List.mem_of_getElem? hc
            rw [linkAbove_cons hc] at above
            exact .inr ⟨c, member, (ih c member _).mpr ⟨path, below, by simpa [or_assoc] using above⟩⟩

theorem written_leaf (inLink : Bool) (l : Leaf) (info : Record) :
    written inLink (.leaf l info) = (slug? inLink l).toList := by
  rw [written, placed, List.filterMap_cons, slugOf?]
  cases slug? inLink l <;> rfl

theorem written_headed (inLink : Bool) (header : Node) (rows : List Node) (al : List (Option String))
    (info : Record) : written inLink (.table (some header) rows al info) =
      written inLink header ++ writtenIn inLink rows := List.filterMap_append

theorem writtenIn_cons (inLink : Bool) (n : Node) (ns : List Node) :
    writtenIn inLink (n :: ns) = written inLink n ++ writtenIn inLink ns := List.filterMap_append

theorem mem_writtenIn {ns : List Node} :
    slug ∈ writtenIn inLink ns ↔ ∃ n ∈ ns, slug ∈ written inLink n := by
  induction ns with
  | nil => simp [writtenIn, placedIn]
  | cons n ns ih => simp [writtenIn_cons, ih]

/-- In either order the same slugs occur. -/
theorem mem_written (n : Node) : ∀ inLink, slug ∈ written inLink n ↔ slug ∈ met inLink n := by
  have list (ns : List Node) (inLink : Bool)
      (each : ∀ n ∈ ns, ∀ inLink, slug ∈ written inLink n ↔ slug ∈ met inLink n) :
      slug ∈ writtenIn inLink ns ↔ slug ∈ metIn inLink ns := by
    rw [mem_writtenIn, mem_metIn]
    exact exists_congr fun n => and_congr_right fun hn => each n hn inLink
  induction n using induct with
  | leaf l info =>
      intro inLink
      rw [written_leaf, met]
  | branch k cs info ih => exact fun inLink => list cs _ ih
  | table header rows al info hheader hrows =>
      intro inLink
      cases header with
      | none => exact list rows _ hrows
      | some header =>
          rw [written_headed, met, List.mem_append, List.mem_append, hheader header rfl,
            list rows _ hrows, or_comm]

theorem mem_writtenIn_iff (inLink : Bool) (ns : List Node) :
    slug ∈ writtenIn inLink ns ↔ slug ∈ metIn inLink ns := by
  rw [mem_writtenIn, mem_metIn]
  exact exists_congr fun n => and_congr_right fun hn => mem_written n inLink

mutual

/-- Whether the stage records the tags of a tree in the order of the document, once it has seen some
slugs. In a table the new slugs of the header have to begin those of the rows, or the other way. -/
def inOrder (seen : List String) (inLink : Bool) : Node → Bool
  | .leaf _ _ => true
  | .branch k cs _ => inOrderAll seen (inLink || k.isLink) cs
  | .table none rows _ _ => inOrderAll seen inLink rows
  | .table (some header) rows _ _ =>
    let ofHeader := fresh seen (written inLink header)
    let ofRows := fresh seen (metIn inLink rows)
    (ofHeader.isPrefixOf ofRows && inOrderAll (seen ++ written inLink header) inLink rows) ||
      (ofRows.isPrefixOf ofHeader && inOrder (seen ++ metIn inLink rows) inLink header)

/-- Whether the stage records the tags of the trees of a list in order. -/
def inOrderAll (seen : List String) (inLink : Bool) : List Node → Bool
  | [] => true
  | n :: ns => inOrder seen inLink n && inOrderAll (seen ++ written inLink n) inLink ns

end

theorem fresh_met_iff (n : Node) : ∀ inLink seen,
    fresh seen (met inLink n) = fresh seen (written inLink n) ↔ inOrder seen inLink n = true := by
  have list (ns : List Node) (inLink : Bool)
      (each : ∀ n ∈ ns, ∀ inLink seen,
        fresh seen (met inLink n) = fresh seen (written inLink n) ↔ inOrder seen inLink n = true) :
      ∀ seen, fresh seen (metIn inLink ns) = fresh seen (writtenIn inLink ns) ↔
        inOrderAll seen inLink ns = true := by
    induction ns with
    | nil => exact fun seen => iff_of_true rfl rfl
    | cons n ns ih =>
        intro seen
        obtain ⟨first, later⟩ := List.forall_mem_cons.mp each
        have known : fresh (seen ++ met inLink n) (metIn inLink ns) =
            fresh (seen ++ written inLink n) (metIn inLink ns) :=
          fresh_congr (fun t => by rw [List.mem_append, List.mem_append, mem_written]) _
        have size := length_fresh_eq (fun _ => (mem_written n inLink).symm) seen
        rw [metIn, writtenIn_cons, fresh_append, fresh_append, known, inOrderAll, Bool.and_eq_true,
          ← first, ← ih later]
        refine ⟨fun equal => List.append_inj equal size, fun same => ?_⟩
        rw [same.1, same.2]
  induction n using induct with
  | leaf l info =>
      intro inLink seen
      rw [met, written_leaf]
      exact iff_of_true rfl rfl
  | branch k cs info ih => exact fun inLink seen => list cs _ ih seen
  | table header rows al info hheader hrows =>
      intro inLink seen
      cases header with
      | none => exact list rows _ hrows seen
      | some header =>
          rw [met, written_headed, fresh_swap_iff (fun t => mem_written header inLink)
            (fun t => (mem_writtenIn_iff inLink rows).symm), list rows _ hrows, hheader header rfl]
          simp [inOrder]

theorem tags_of_new (o : Options) (n : Node) (note : String) (known : Option (List String))
    (log : Log.Records) : ∃ m s, (visit.run o n).outcome ⟨Context.new note known, log⟩ = (.ok (some m), s) ∧
      s.context.tags = fresh [] (met false n) := by
  obtain ⟨log', run⟩ := transform_resolved o n false (Context.new note known) log
  refine ⟨_, _, run, ?_⟩
  rw [Context.addTags_eq]
  exact List.nil_append _

/-- A new context gets each slug once, at the place where the stage first meets it. This is the order
of the document for the trees that `inOrder` describes and for no other. -/
theorem tags_in_order_iff (o : Options) (n : Node) (note : String) (known : Option (List String))
    (log : Log.Records) : ∃ m s, (visit.run o n).outcome ⟨Context.new note known, log⟩ = (.ok (some m), s) ∧
      s.context.tags = (met false n).eraseDups ∧
      (s.context.tags = (written false n).eraseDups ↔ inOrder [] false n = true) := by
  obtain ⟨m, s, run, recorded⟩ := tags_of_new o n note known log
  refine ⟨m, s, run, recorded.trans (fresh_nil _), ?_⟩
  rw [recorded, ← fresh_nil (written false n)]
  exact fresh_met_iff n false []

/-- A table with a tag in its header and another one in its row. -/
def crossedTable : Node :=
  .table (some (.branch (.tableRow true) [.branch (.tableCell none) [.leaf (.tag "b") []] []] []))
    [.branch (.tableRow false) [.branch (.tableCell none) [.leaf (.tag "a") []] []] []] [none] []

theorem crossedTable_out_of_order :
    ∃ m s, (visit.run Options.defaults crossedTable).outcome ⟨Context.new "n" none, []⟩ =
        (.ok (some m), s) ∧
      s.context.tags = ["a", "b"] ∧ (written false crossedTable).eraseDups = ["b", "a"] := by
  obtain ⟨m, s, run, recorded⟩ := tags_of_new Options.defaults crossedTable "n" none []
  have ofStage : met false crossedTable = ["a", "b"] := by decide
  have ofDocument : written false crossedTable = ["b", "a"] := by decide
  refine ⟨m, s, run, ?_, ?_⟩
  · rw [recorded, ofStage]
    decide
  · rw [ofDocument]
    decide

end NoteMarkup.Stage.Tags
