import NoteMarkup.Proofs.Attributes
import NoteMarkup.Proofs.Fragment
import NoteMarkup.Proofs.RenderedText
import NoteMarkup.Proofs.Tree
import NoteMarkup.Stage.Blocks

/-! Rendering of sound trees. A tree is sound if the information on its nodes can be used: render
attributes are maps, and tables hold rows of cells. Such a tree renders without a fault. If it is also
safe, in that names of attributes are names and raw markup is a fragment, it renders as a fragment. -/

namespace NoteMarkup

open Html Node Stage

/-- A row that holds nothing but cells. -/
def Node.isCellRow : Node → Bool
  | .branch (.tableRow _) cells _ => cells.all fun c => c.kind == .tableCell
  | _ => false

theorem Node.eq_row_of_isCellRow {row : Node} (shape : row.isCellRow = true) :
    ∃ h cells info, row = .branch (.tableRow h) cells info := by
  cases row with
  | branch c cells info =>
      cases c with
      | tableRow h => exact ⟨h, cells, info, rfl⟩
      | _ => cases shape
  | _ => cases shape

theorem Node.eq_cell_of_kind {c : Node} (kind : c.kind = .tableCell) :
    ∃ own cs info, c = .branch (.tableCell own) cs info := by
  cases c with
  | branch c cs info =>
      cases c with
      | tableCell own => exact ⟨own, cs, info, rfl⟩
      | _ => cases kind
  | leaf l info => cases l <;> cases kind
  | table header rows al info => cases kind

/-- A table holds rows of cells; there is nothing to say of other nodes. -/
def Node.isTabular : Node → Bool
  | .table header rows _ _ => (header.toList ++ rows).all isCellRow
  | _ => true

/-- The raw markup of a node. -/
def Node.raw? : Node → Option String
  | .leaf (.htmlBlock content) _ => some content
  | .leaf (.htmlInline content) _ => some content
  | _ => none

/-- Render attributes as the stages need them, with different names that can be written if `safe`. -/
structure UsableAttrs (safe : Prop) (as : Record) : Prop where
  nameable : safe → Nameable as
  distinct : safe → Entries.Distinct as
  classes : ∀ v, as.get? (.str "class") = some v → ∃ items, v = .list items
  id : ∀ v, as.get? Blocks.idKey = some v → v.isKey = true

/-- The information on a node can be used, but for an id that it is to hand on, if `excused`. -/
structure Sound (safe excused : Prop) (n : Node) : Prop where
  attrs : ∃ as, HasAttrs n.info as ∧ UsableAttrs safe as
  tag : safe → n.info.get? tagKey = none ∨ n.info.get? tagKey = some (.str "div")
  marker : ((n.info.get? Blocks.markerKey).getD .null).isKey = true ∨ excused
  raw : safe → ∀ content, n.raw? = some content → isGenerated n.info = true ∧ Fragment content
  tabular : n.isTabular = true

/-- Rendering gives a text, which is a fragment if `safe`. -/
def Renders (safe : Prop) (r : Except Fault String) : Prop :=
  ∃ s, r = .ok s ∧ (safe → Fragment s)

namespace Html

variable {safe excused : Prop} {info : Record} {tight : Bool}

theorem nodeAttributes_ok {base : Record} (hb : Nameable base)
    (h : ∃ as, HasAttrs info as ∧ UsableAttrs safe as) :
    ∃ s, nodeAttributes base info = .ok s ∧ (safe → Attributed s) := by
  obtain ⟨as, has, usable⟩ := h
  refine ⟨attributes (base.merge as), ?_, ?_⟩
  · rw [nodeAttributes, has.attrsOf]
    rfl
  · intro s
    exact attributes_attributed (hb.merge (usable.nameable s))

theorem nameable_nil : Nameable [] := nofun

theorem nameable_single {name : String} (h : isName name = true) (v : Value) :
    Nameable [(.str name, v)] := by
  intro e he
  rw [List.mem_singleton.mp he]
  exact ⟨name, rfl, h⟩

theorem nameable_cons {name : String} {v : Value} {r : Record} (h : isName name = true)
    (hr : Nameable r) : Nameable ((.str name, v) :: r) := by
  refine List.forall_mem_cons.mpr ⟨⟨name, rfl, h⟩, hr⟩

theorem nameable_titleAttr (title : Option String) : Nameable (titleAttr title) := by
  unfold titleAttr
  split
  · split
    · exact nameable_nil
    · exact nameable_single rfl _
  · exact nameable_nil

theorem nameable_cellStyle (own column : Option String) : Nameable (cellStyle own column) := by
  unfold cellStyle
  dsimp only
  split
  · split
    · exact nameable_nil
    · exact nameable_single rfl _
  · exact nameable_nil

theorem heading_name (level : HeadingLevel) :
    isName ("h" ++ level.text) = true ∧ isVoid ("h" ++ level.text) = false := by
  have names : ∀ t ∈ ["True", "1", "2", "3", "4", "5", "6"],
      isName ("h" ++ t) = true ∧ isVoid ("h" ++ t) = false := by decide
  refine names _ ?_
  obtain ⟨val, ⟨lower, upper⟩, truth⟩ := level
  unfold HeadingLevel.text
  split
  · exact List.mem_cons_self
  · change toString val ∈ _
    have values : val = 1 ∨ val = 2 ∨ val = 3 ∨ val = 4 ∨ val = 5 ∨ val = 6 := by omega
    rcases values with rfl | rfl | rfl | rfl | rfl | rfl <;> decide

theorem taskBox_fragment (mark : Option TaskMark) (info : Record) : Fragment (taskBox mark info) := by
  have input {box : Record} (names : Nameable box) :
      Fragment ("<input" ++ attributes box ++ "> ") := by
    have tag : Fragment ("<" ++ "input" ++ attributes box ++ ">") :=
      .void_of_attributed _ rfl rfl (attributes_attributed names)
    have blank : Fragment " " := .text rfl
    refine (tag.append blank).of_eq ?_
    apply String.ext
    simp
  unfold taskBox
  split
  · exact .empty
  · exact .empty
  · dsimp only
    split
    · exact input (nameable_cons rfl (nameable_cons rfl (nameable_single rfl _)))
    · exact input (nameable_cons rfl (nameable_cons rfl (nameable_single rfl _)))

theorem attributed_nil : Attributed "" := ⟨[], rfl, rfl⟩

theorem lineEnd_fragment : Fragment "\n" := .text rfl

/-- An element on lines of its own. -/
theorem Fragment.line {s : String} (h : Fragment s) : Fragment (s ++ "\n") := h.append lineEnd_fragment

/-- An element without attributes. -/
theorem Fragment.plain (name : String) {s : String} (hn : isName name = true)
    (hv : isVoid name = false) (h : Fragment s) : Fragment (Html.element name "" s) :=
  .element_of_attributed name hn hv attributed_nil h

theorem renderLeaf_renders {l : Leaf} (h : Sound safe excused (.leaf l info)) :
    Renders safe (renderLeaf l info) := by
  have attrs : ∃ as, HasAttrs info as ∧ UsableAttrs safe as := h.attrs
  cases l with
  | text content => exact ⟨_, rfl, fun _ => .escaped _⟩
  | code content => exact ⟨_, rfl, fun _ => .plain _ rfl rfl (.escaped _)⟩
  | codeBlock content language =>
      have code {base : Record} (names : Nameable base) : Renders safe (do
          return "<pre>" ++ element "code" (← nodeAttributes base info) (escape content)
            ++ "</pre>\n") := by
        obtain ⟨a, ha, attributed⟩ := nodeAttributes_ok names attrs
        rw [ha]
        refine ⟨_, rfl, fun s => ?_⟩
        have inner := Fragment.element_of_attributed "code" rfl rfl (attributed s)
          (.escaped content)
        refine (Fragment.plain "pre" rfl rfl inner).line.of_eq ?_
        apply String.ext
        simp [element]
      refine code ?_
      split
      · split
        · exact nameable_nil
        · exact nameable_single rfl _
      · exact nameable_nil
  | thematicBreak => exact ⟨_, rfl, fun _ => (Fragment.void "hr" [] rfl rfl rfl).line⟩
  | lineBreak => exact ⟨_, rfl, fun _ => (Fragment.void "br" [] rfl rfl rfl).line⟩
  | htmlBlock content =>
      refine ⟨_, rfl, fun s => ?_⟩
      have raw := (h.raw s content rfl).2
      split
      · exact raw
      · exact raw.line
  | htmlInline content => exact ⟨_, rfl, fun s => (h.raw s content rfl).2⟩
  | image url alt title =>
      have names : Nameable ([(.str "src", .str url), (.str "alt", .str alt)] ++ titleAttr title) :=
        nameable_cons rfl (nameable_cons rfl (nameable_titleAttr title))
      obtain ⟨a, ha, attributed⟩ := nodeAttributes_ok names attrs
      dsimp only [renderLeaf]
      rw [ha]
      refine ⟨_, rfl, fun s => ?_⟩
      refine (Fragment.void_of_attributed "img" rfl rfl (attributed s)).of_eq ?_
      apply String.ext
      simp
  | wikiLink r => exact ⟨_, rfl, fun _ => .escaped _⟩
  | tag value => exact ⟨_, rfl, fun _ => .escaped _⟩

theorem renderAll_renders {ns : List Node} (each : ∀ n ∈ ns, Renders safe (render tight n)) :
    Renders safe (renderAll tight ns) := by
  induction ns with
  | nil => exact ⟨_, rfl, fun _ => .empty⟩
  | cons n ns ih =>
      obtain ⟨first, later⟩ := List.forall_mem_cons.mp each
      obtain ⟨s, hs, fs⟩ := first
      obtain ⟨t, ht, ft⟩ := ih later
      rw [renderAll, hs, ht]
      exact ⟨_, rfl, fun safe => (fs safe).append (ft safe)⟩

theorem renderCells_renders {cell : String} (hn : isName cell = true) (hv : isVoid cell = false)
    {cells : List Node} (cellKind : ∀ c ∈ cells, c.kind = .tableCell)
    (attrs : ∀ c ∈ cells, ∃ as, HasAttrs c.info as ∧ UsableAttrs safe as)
    (content : ∀ c ∈ cells, Renders safe (renderAll tight c.children)) (al : List (Option String)) :
    Renders safe (renderCells tight cell al cells) := by
  induction cells generalizing al with
  | nil => exact ⟨_, by cases al <;> rfl, fun _ => .empty⟩
  | cons c cells ih =>
      obtain ⟨kind, kinds⟩ := List.forall_mem_cons.mp cellKind
      obtain ⟨attr, attrs⟩ := List.forall_mem_cons.mp attrs
      obtain ⟨inner, inners⟩ := List.forall_mem_cons.mp content
      obtain ⟨t, ht, ft⟩ := ih kinds attrs inners al.tail
      obtain ⟨own, cs, info, rfl⟩ := eq_cell_of_kind kind
      obtain ⟨s, hs, fs⟩ : Renders safe (renderAll tight cs) := inner
      obtain ⟨a, ha, attributed⟩ := nodeAttributes_ok (nameable_cellStyle own al.head?.join) attr
      have ha : nodeAttributes (cellStyle own al.head?.join) info = .ok a := ha
      rw [renderCells, hs, ha, ht]
      refine ⟨_, rfl, fun safe => ?_⟩
      exact (Fragment.element_of_attributed _ hn hv (attributed safe) (fs safe)).append (ft safe)

theorem renderRows_renders {cell : String} {al : List (Option String)} {rows : List Node}
    (each : ∀ r ∈ rows, Renders safe (renderRow tight cell al r)) :
    Renders safe (renderRows tight cell al rows) := by
  induction rows with
  | nil => exact ⟨_, rfl, fun _ => .empty⟩
  | cons r rows ih =>
      obtain ⟨first, later⟩ := List.forall_mem_cons.mp each
      obtain ⟨s, hs, fs⟩ := first
      obtain ⟨t, ht, ft⟩ := ih later
      rw [renderRows, hs, ht]
      exact ⟨_, rfl, fun safe => (fs safe).append (ft safe)⟩

/-- A container renders if its content does. -/
theorem render_branch_renders {c : Container} {cs : List Node}
    (h : Sound safe excused (.branch c cs info))
    (content : ∀ tight, Renders safe (renderAll tight cs)) (tight : Bool) :
    Renders safe (render tight (.branch c cs info)) := by
  have attrs : ∃ as, HasAttrs info as ∧ UsableAttrs safe as := h.attrs
  obtain ⟨s, hs, fs⟩ := content tight
  -- an element with the node's attributes on top of others that can be written
  have line {base : Record} (hb : Nameable base) : ∃ a, nodeAttributes base info = .ok a ∧
      (safe → ∀ name t, isName name = true → isVoid name = false → Fragment t →
        Fragment (element name a t)) := by
    obtain ⟨a, ha, attributed⟩ := nodeAttributes_ok hb attrs
    exact ⟨a, ha, fun s name t hn hv ht => .element_of_attributed name hn hv (attributed s) ht⟩
  cases c with
  | document => exact ⟨s, hs, fs⟩
  | heading level =>
      obtain ⟨a, ha, within⟩ := line nameable_nil
      obtain ⟨hn, hv⟩ := heading_name level
      rw [render, hs, ha]
      exact ⟨_, rfl, fun safe => (within safe _ _ hn hv (fs safe)).line⟩
  | paragraph =>
      obtain ⟨a, ha, within⟩ := line nameable_nil
      rw [render, hs, ha]
      refine ⟨_, rfl, fun safe => ?_⟩
      split
      · exact fs safe
      · exact (within safe "p" _ rfl rfl (fs safe)).line
  | blockQuote =>
      obtain ⟨t, ht, ft⟩ := content false
      obtain ⟨a, ha, within⟩ := line nameable_nil
      rw [render, ha, ht]
      refine ⟨_, rfl, fun safe => ?_⟩
      have body := lineEnd_fragment.append (ft safe)
      have tag : info.get? tagKey = none ∨ info.get? tagKey = some (.str "div") := h.tag safe
      rcases tag with none | div
      · rw [none]
        exact (within safe "blockquote" _ rfl rfl body).line
      · rw [div]
        exact (within safe "div" _ rfl rfl body).line
  | list ordered start listTight =>
      obtain ⟨t, ht, ft⟩ := content listTight
      have names : Nameable (if ordered && start != 1 then [(.str "start", .int start)] else []) := by
        split
        · exact nameable_single rfl _
        · exact nameable_nil
      obtain ⟨a, ha, within⟩ := line names
      rw [render, ha, ht]
      refine ⟨_, rfl, fun safe => ?_⟩
      have body := lineEnd_fragment.append (ft safe)
      refine (within safe _ _ ?_ ?_ body).line
      · cases ordered <;> rfl
      · cases ordered <;> rfl
  | listItem mark =>
      obtain ⟨a, ha, within⟩ := line nameable_nil
      rw [render, hs, ha]
      refine ⟨_, rfl, fun safe => ?_⟩
      exact (within safe "li" _ rfl rfl ((taskBox_fragment mark info).append (fs safe))).line
  | tableRow => exact ⟨"", rfl, fun _ => .empty⟩
  | tableCell => exact ⟨"", rfl, fun _ => .empty⟩
  | emphasis =>
      rw [render, hs]
      exact ⟨_, rfl, fun safe => .plain _ rfl rfl (fs safe)⟩
  | strong =>
      rw [render, hs]
      exact ⟨_, rfl, fun safe => .plain _ rfl rfl (fs safe)⟩
  | strikethrough =>
      rw [render, hs]
      exact ⟨_, rfl, fun safe => .plain _ rfl rfl (fs safe)⟩
  | link url title =>
      have names : Nameable ((.str "href", .str url) :: titleAttr title) :=
        nameable_cons rfl (nameable_titleAttr title)
      obtain ⟨a, ha, within⟩ := line names
      rw [render, hs, ha]
      exact ⟨_, rfl, fun safe => within safe "a" _ rfl rfl (fs safe)⟩
  | highlight =>
      rw [render, hs]
      have marks : Fragment "==" := .text rfl
      exact ⟨_, rfl, fun safe => (marks.append (fs safe)).append marks⟩

/-- The whole of a table around its rendered rows. -/
theorem table_fragment {a head body : String} (attributed : Attributed a) (hhead : Fragment head)
    (hbody : Fragment body) (rows : List Node) :
    Fragment (element "table" a ("\n" ++ head ++
      (if rows.isEmpty then "" else element "tbody" "" ("\n" ++ body) ++ "\n")) ++ "\n") := by
  refine (Fragment.element_of_attributed "table" rfl rfl attributed ?_).line
  refine (lineEnd_fragment.append hhead).append ?_
  split
  · exact .empty
  · exact (Fragment.plain "tbody" rfl rfl (lineEnd_fragment.append hbody)).line

/-- A row of cells renders if the content of each cell does. -/
theorem renderRow_renders {cell : String} (hn : isName cell = true) (hv : isVoid cell = false)
    {row : Node} (shape : row.isCellRow = true)
    (attrs : ∀ c ∈ row.children, ∃ as, HasAttrs c.info as ∧ UsableAttrs safe as)
    (content : ∀ c ∈ row.children, Renders safe (renderAll tight c.children))
    (al : List (Option String)) : Renders safe (renderRow tight cell al row) := by
  obtain ⟨h, cells, info, rfl⟩ := eq_row_of_isCellRow shape
  have kinds : ∀ c ∈ cells, c.kind = .tableCell := by
    simpa [isCellRow] using shape
  obtain ⟨s, hs, fs⟩ := renderCells_renders hn hv kinds attrs content al
  rw [renderRow, hs]
  exact ⟨_, rfl, fun safe => (Fragment.plain "tr" rfl rfl (fs safe)).line⟩

/-- A sound node renders if all nodes below it do. -/
theorem render_of_below {n : Node} (sound : All (Sound safe excused) n)
    (below : ∀ c ∈ n.children, ∀ m ∈ c.nodes, ∀ tight, Renders safe (render tight m))
    (tight : Bool) : Renders safe (render tight n) := by
  have content {c : Node} (hc : c ∈ n.children) (tight : Bool) :
      Renders safe (renderAll tight c.children) :=
    renderAll_renders fun k hk => below c hc k (mem_nodes.mpr (.inr ⟨k, hk, k.self_mem_nodes⟩)) tight
  cases n with
  | leaf l info => exact renderLeaf_renders sound.self
  | branch c cs info =>
      refine render_branch_renders sound.self (fun tight => ?_) tight
      exact renderAll_renders fun k hk => below k hk k k.self_mem_nodes tight
  | table header rows al info =>
      have row (cell : String) (hn : isName cell = true) (hv : isVoid cell = false) {r : Node}
          (hr : r ∈ header.toList ++ rows) : Renders safe (renderRow tight cell al r) := by
        have shape : r.isCellRow = true := List.all_eq_true.mp sound.self.tabular r hr
        have ofRow : All (Sound safe excused) r := sound.child hr
        refine renderRow_renders hn hv shape (fun c hc => (ofRow.child hc).self.attrs) ?_ al
        intro c hc
        refine renderAll_renders fun k hk => below r hr k ?_ tight
        exact mem_nodes.mpr (.inr ⟨c, hc, mem_nodes.mpr (.inr ⟨k, hk, k.self_mem_nodes⟩)⟩)
      have attrs : ∃ as, HasAttrs info as ∧ UsableAttrs safe as := sound.self.attrs
      obtain ⟨a, ha, attributed⟩ := nodeAttributes_ok nameable_nil attrs
      obtain ⟨body, hbody, fbody⟩ : Renders safe (renderRows tight "td" al rows) :=
        renderRows_renders fun r hr => row _ rfl rfl (List.mem_append_right _ hr)
      cases header with
      | none =>
          rw [render, ha, hbody]
          refine ⟨_, rfl, fun safe => ?_⟩
          exact (table_fragment (attributed safe) .empty (fbody safe) rows).of_eq (by simp)
      | some header =>
          obtain ⟨head, hhead, fhead⟩ := row "th" rfl rfl
            (List.mem_append_left rows (List.mem_singleton.mpr rfl))
          rw [render, ha, hhead, hbody]
          refine ⟨_, rfl, fun safe => ?_⟩
          have thead := (Fragment.plain "thead" rfl rfl (lineEnd_fragment.append (fhead safe))).line
          exact (table_fragment (attributed safe) thead (fbody safe) rows).of_eq
            (by simp only [String.append_assoc])

/-- Every node of a sound tree renders. -/
theorem render_sound {n : Node} (sound : All (Sound safe excused) n) :
    ∀ m ∈ n.nodes, ∀ tight, Renders safe (render tight m) := by
  induction n using induct with
  | leaf l info =>
      intro m hm
      rw [nodes, List.mem_singleton] at hm
      rw [hm]
      exact render_of_below sound (by rintro _ ⟨⟩)
  | branch c cs info ih =>
      have below : ∀ n ∈ cs, ∀ m ∈ n.nodes, ∀ tight, Renders safe (render tight m) :=
        fun n hn => ih n hn (sound.child hn)
      intro m hm
      rcases mem_nodes.mp hm with rfl | ⟨n, hn, hm⟩
      · exact render_of_below sound below
      · exact below n hn m hm
  | table header rows al info hheader hrows =>
      have below : ∀ n ∈ header.toList ++ rows, ∀ m ∈ n.nodes, ∀ tight,
          Renders safe (render tight m) := by
        intro n hn
        have ofChild : All (Sound safe excused) n := sound.child hn
        rcases List.mem_append.mp hn with first | later
        · exact hheader n (Option.mem_toList.mp first) ofChild
        · exact hrows n later ofChild
      intro m hm
      rcases mem_nodes.mp hm with rfl | ⟨n, hn, hm⟩
      · exact render_of_below sound below
      · exact below n hn m hm

end Html

end NoteMarkup
