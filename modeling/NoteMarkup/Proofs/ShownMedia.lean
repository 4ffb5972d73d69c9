import NoteMarkup.Proofs.MissedMarkup
import NoteMarkup.Proofs.Visits
import NoteMarkup.Proofs.Rendering

/-! What the markup of a tree misses while some stages are still to come. A stage takes care of an
image or a link wherever it is shown, except in the title of a callout, which is rendered before the
later stages run. With no stage to come, the judgement of a tree is that of its markup. -/

namespace NoteMarkup

open Html Node Stage

/-- Where a node can be shown. -/
inductive Place where
  | flow
  | row
  | cell
deriving DecidableEq

/-- What to look for in a tree, with whether it stands in the title of a callout. A highlight may
hide what stands in it, and a block quote may open with a title. -/
structure Look where
  leaf : Bool → Leaf → Record → Bool
  link : Bool → String → Option String → Record → Bool
  hides : Bool
  titles : Bool

namespace Node

def place : Node → Place
  | .branch (.tableRow _) _ _ => .row
  | .branch (.tableCell _) _ _ => .cell
  | _ => .flow

mutual

/-- Whether something to look for is shown in the place of the node. -/
def shows (v : Look) (inTitle : Bool) : Node → Bool
  | .leaf l info => v.leaf inTitle l info
  | .branch (.link url title) cs info =>
    v.link inTitle url title info || showsAny v .flow inTitle cs
  | .branch .highlight cs _ => !v.hides && showsAny v .flow inTitle cs
  | .branch .blockQuote cs info =>
    if v.titles && Callouts.opens (.branch .blockQuote cs info) then showsOpening v inTitle cs
    else showsAny v .flow inTitle cs
  | .branch (.tableRow _) cells _ => showsAny v .cell inTitle cells
  | .branch _ cs _ => showsAny v .flow inTitle cs
  | .table none rows _ _ => showsAny v .row inTitle rows
  | .table (some header) rows _ _ =>
    (header.place == .row && shows v inTitle header) || showsAny v .row inTitle rows

/-- Whether it is shown by one of the nodes that can stand here. -/
def showsAny (v : Look) (here : Place) (inTitle : Bool) : List Node → Bool
  | [] => false
  | n :: ns => (n.place == here && shows v inTitle n) || showsAny v here inTitle ns

/-- Whether it is shown by the children of a callout, the first of which holds the title. -/
def showsOpening (v : Look) (inTitle : Bool) : List Node → Bool
  | [] => false
  | n :: ns => shows v true n || showsAny v .flow inTitle ns

end

section Shows

variable {v w : Look} {here : Place} {inTitle : Bool} {n : Node} {ns ms : List Node}

theorem showsAny_append :
    showsAny v here inTitle (ns ++ ms) = (showsAny v here inTitle ns || showsAny v here inTitle ms) := by
  induction ns with
  | nil => rfl
  | cons n ns ih => rw [List.cons_append, showsAny, showsAny, ih, Bool.or_assoc]

theorem shows_table (header : Option Node) (rows : List Node) (al : List (Option String))
    (info : Record) : shows v inTitle (.table header rows al info) =
      showsAny v .row inTitle (header.toList ++ rows) := by
  cases header with
  | none => rw [shows, Option.toList_none, List.nil_append]
  | some header => rw [shows, Option.toList_some, List.singleton_append, showsAny]

theorem showsAny_congr (each : ∀ n ∈ ns, shows v inTitle n = shows w inTitle n) :
    showsAny v here inTitle ns = showsAny w here inTitle ns := by
  induction ns with
  | nil => rfl
  | cons n ns ih =>
      obtain ⟨first, later⟩ := List.forall_mem_cons.mp each
      rw [showsAny, showsAny, first, ih later]

/-- Two looks that agree on the leaves and links of a tree find the same in it. -/
theorem shows_congr (hides : v.hides = w.hides) (titles : v.titles = w.titles) (n : Node) :
    ∀ inTitle,
      (∀ t l info, (inTitle = true → t = true) → .leaf l info ∈ n.nodes →
        v.leaf t l info = w.leaf t l info) →
      (∀ t url title cs info, (inTitle = true → t = true) →
        .branch (.link url title) cs info ∈ n.nodes → v.link t url title info = w.link t url title info) →
      shows v inTitle n = shows w inTitle n := by
  induction n using induct_children with
  | step n ih =>
      intro inTitle leaf link
      have child : ∀ c ∈ n.children, ∀ t, (inTitle = true → t = true) → shows v t c = shows w t c := by
        intro c hc t reach
        refine ih c hc t ?_ ?_
        · intro s l info reach' hl
          exact leaf s l info (reach' ∘ reach) (mem_nodes.mpr (.inr ⟨c, hc, hl⟩))
        · intro s url title cs info reach' hl
          exact link s url title cs info (reach' ∘ reach) (mem_nodes.mpr (.inr ⟨c, hc, hl⟩))
      have content (here : Place) :
          showsAny v here inTitle n.children = showsAny w here inTitle n.children :=
        showsAny_congr fun c hc => child c hc inTitle id
      cases n with
      | leaf l info =>
          rw [shows, shows]
          exact leaf inTitle l info id (self_mem_nodes _)
      | table header rows al info =>
          rw [shows_table, shows_table]
          exact content .row
      | branch k cs info =>
          cases k with
          | link url title =>
              rw [shows, shows, link inTitle url title cs info id (self_mem_nodes _)]
              exact congrArg _ (content .flow)
          | highlight =>
              rw [shows, shows, hides]
              exact congrArg _ (content .flow)
          | blockQuote =>
              rw [shows, shows, titles]
              split
              · cases cs with
                | nil => rfl
                | cons c cs =>
                    rw [showsOpening, showsOpening, child c List.mem_cons_self true fun _ => rfl]
                    exact congrArg _ (showsAny_congr fun c hc =>
                      child c (List.mem_cons_of_mem _ hc) inTitle id)
              · exact content .flow
          | tableRow => exact content .cell
          | _ => exact content .flow

end Shows

end Node

/-- The attributes that a node is given. -/
def given (info : Record) : Record :=
  match attrsOf info with
  | .ok as => as
  | .error _ => []

theorem given_of_hasAttrs {info as : Record} (h : HasAttrs info as) : given info = as := by
  rw [given, h.attrsOf]

theorem given_named {info as : Record} (h : HasAttrs info as) (named : as.Named) : (given info).Named :=
  given_of_hasAttrs h ▸ named

def imageRecord (url alt : String) (title : Option String) (info : Record) : Record :=
  Record.merge ([(.str "src", .str url), (.str "alt", .str alt)] ++ titleAttr title) (given info)

def linkRecord (url : String) (title : Option String) (info : Record) : Record :=
  Record.merge ((.str "href", .str url) :: titleAttr title) (given info)

section Records

variable {info : Record} {url alt : String} {title : Option String}

theorem imageRecord_named (url alt : String) (title : Option String) (named : (given info).Named) :
    (imageRecord url alt title info).Named ∧ Entries.Distinct (imageRecord url alt title info) := by
  have base : Record.Named ([(.str "src", .str url), (.str "alt", .str alt)] ++ titleAttr title) :=
    (nameable_cons rfl (nameable_cons rfl (nameable_titleAttr title))).named
  refine ⟨base.merge named, Record.distinct_merge ?_ named⟩
  unfold titleAttr
  split
  · split <;> simp [Entries.Distinct]
  · simp [Entries.Distinct]

theorem linkRecord_named (url : String) (title : Option String) (named : (given info).Named) :
    (linkRecord url title info).Named ∧ Entries.Distinct (linkRecord url title info) := by
  have base : Record.Named ((.str "href", .str url) :: titleAttr title) :=
    (nameable_cons rfl (nameable_titleAttr title)).named
  refine ⟨base.merge named, Record.distinct_merge ?_ named⟩
  unfold titleAttr
  split
  · split <;> simp [Entries.Distinct]
  · simp [Entries.Distinct]

/-- An image is judged by its source. -/
theorem isMissed_image (named : (given info).Named) :
    isMissed ("img", attrList (imageRecord url alt title info)) =
      (((imageRecord url alt title info).get? (.str "src")).bind valueText?).any isPlayed := by
  obtain ⟨names, distinct⟩ := imageRecord_named url alt title named
  rw [isMissed, attr?_attrList names distinct]
  simp

/-- A link is judged by its address and its classes. -/
theorem isMissed_link (named : (given info).Named) :
    isMissed ("a", attrList (linkRecord url title info)) =
      ((((linkRecord url title info).get? (.str "href")).bind valueText?).any MediaUrl.isAppLink &&
        !(classesIn ((((linkRecord url title info).get? (.str "class")).bind valueText?).getD "")).contains
          Media.appClass) := by
  obtain ⟨names, distinct⟩ := linkRecord_named url title named
  simp only [isMissed, attr?_attrList names distinct]
  simp

/-- Without a source of its own, an image has that of its address. -/
theorem isMissed_image_of_none {as : Record} (has : HasAttrs info as) (named : as.Named)
    (own : as.get? (.str "src") = none) :
    isMissed ("img", attrList (imageRecord url alt title info)) = isPlayed url := by
  rw [← given_of_hasAttrs has] at named own
  rw [isMissed_image named, imageRecord, Record.get?_merge_of_none named own]
  rfl

/-- A link elsewhere is not missed. -/
theorem isMissed_link_of_none {as : Record} (has : HasAttrs info as) (named : as.Named)
    (own : as.get? (.str "href") = none) (other : MediaUrl.isAppLink url = false) :
    isMissed ("a", attrList (linkRecord url title info)) = false := by
  rw [← given_of_hasAttrs has] at named own
  have address : (linkRecord url title info).get? (.str "href") = some (.str url) := by
    rw [linkRecord, Record.get?_merge_of_none named own]
    rfl
  rw [isMissed_link named, address]
  simp [valueText?, attributeText, Value.text, other]

theorem contains_addAppClass (classes : List Value) :
    Media.appClass ∈ (Media.addAppClass classes).map Value.text := by
  unfold Media.addAppClass
  split
  · next there =>
      obtain ⟨v, hv, same⟩ := List.any_eq_true.mp there
      rw [Value.sameKey_str_iff] at same
      exact List.mem_map.mpr ⟨v, hv, by rw [same]; rfl⟩
  · refine List.mem_map.mpr ⟨.str Media.appClass, ?_, rfl⟩
    exact List.mem_append_right _ (List.mem_singleton.mpr rfl)

/-- A link with the class is not missed. -/
theorem isMissed_link_of_class {as : Record} {classes : List Value} (has : HasAttrs info as)
    (named : as.Named) (distinct : Entries.Distinct as)
    (own : as.get? (.str "class") = some (.list (Media.addAppClass classes))) :
    isMissed ("a", attrList (linkRecord url title info)) = false := by
  rw [← given_of_hasAttrs has] at named own distinct
  have some : valueText? (.list (Media.addAppClass classes)) =
      .some (" ".intercalate ((Media.addAppClass classes).map Value.text)) := by
    have marked := contains_addAppClass classes
    cases items : Media.addAppClass classes with
    | nil => rw [items] at marked; cases marked
    | cons => rfl
  have listed := mem_classesIn_intercalate (contains_addAppClass classes) (by decide)
  rw [isMissed_link named, linkRecord, Record.get?_merge_of_some named distinct own, Option.bind_some,
    some]
  simp [listed]

end Records

/-- The address that a reference gets where no link counts as broken. -/
def Reference.address (target : String) (anchor : Option String) : String :=
  if MediaUrl.isExternal target then target
  else (if target.isEmpty then "" else Slug.ofTarget target) ++ part anchor

/-- The judgement of a reference by that of the image or the link that it stands for. An embedded note
is markup at once. -/
def Reference.judge (image link : String → Bool) (r : Reference) : Bool :=
  let target := Links.trimText r.target
  let anchor := Links.trimPart r.anchor
  if r.embedded then
    match Links.medium target with
    | .image => image (Slug.ofTarget target)
    | .note => MediaUrl.isAppLink (Slug.ofTarget target ++ part anchor)
    | _ => false
  else link (address target anchor)

/-- Stages that are still to come, as options that are on for them. -/
def Options.none : Options := ⟨fun _ => false⟩

namespace Options

variable (p : Options)

/-- The options for stages that run before the callouts. -/
def isEarly : Flag → Bool
  | .wikilinks | .highlight | .parseTags | .enableInHtmlEmbed | .enableVideoEmbed => true
  | _ => false

/-- The stages that a node still meets before it is rendered. -/
def meets (inTitle : Bool) : Options :=
  if inTitle then ⟨fun f => p.enabled f && isEarly f⟩ else p

theorem meets_none (inTitle : Bool) : none.meets inTitle = none := by
  cases inTitle <;> rfl

def missesImage (url alt : String) (title : Option String) (info : Record) : Bool :=
  !(p.enabled .enableVideoEmbed && MediaUrl.isVideo url) &&
    !(p.enabled .enableYouTubeEmbed && (MediaUrl.playerEmbed? url).isSome) &&
    !(p.enabled .enableTweetEmbed && MediaUrl.isStatus url) &&
    isMissed ("img", attrList (imageRecord url alt title info))

def missesLink (url : String) (title : Option String) (info : Record) : Bool :=
  !(p.enabled .enableObsidianUri && MediaUrl.isAppLink url) &&
    isMissed ("a", attrList (linkRecord url title info))

def missesReference (r : Reference) : Bool :=
  r.judge (fun url => p.missesImage url "" .none []) fun url => p.missesLink url .none []

def missesLeaf : Leaf → Record → Bool
  | .image url alt title, info => p.missesImage url alt title info
  | .htmlBlock content, _ | .htmlInline content, _ => missed content
  | .wikiLink r, _ => p.enabled .wikilinks && p.missesReference r
  | _, _ => false

/-- What is missed in the markup of a tree after the stages still to come. -/
def missing : Look where
  leaf inTitle := (p.meets inTitle).missesLeaf
  link inTitle := (p.meets inTitle).missesLink
  hides := p.enabled .highlight
  titles := p.enabled .callouts

/-- Whether the markup of a tree misses something after the stages still to come. -/
def misses (inTitle : Bool) (n : Node) : Bool := n.shows p.missing inTitle

end Options

namespace Html

variable {safe excused : Prop} {info : Record} {tight inTitle : Bool}

theorem nodeAttributes_given (info : Record) (h : ∃ as, HasAttrs info as ∧ UsableAttrs True as)
    (base : Record) :
    nodeAttributes base info = .ok (attrList (base.merge (given info))).write := by
  obtain ⟨as, has, -⟩ := h
  rw [nodeAttributes, has.attrsOf, given_of_hasAttrs has, ← attributes_eq_write]
  rfl

theorem isSound_given (info : Record) (h : ∃ as, HasAttrs info as ∧ UsableAttrs True as) {base : Record}
    (hb : Nameable base) : (attrList (base.merge (given info))).isSound = true := by
  obtain ⟨as, has, usable⟩ := h
  rw [given_of_hasAttrs has]
  exact isSound_attrList (hb.merge (usable.nameable trivial))

/-- Rendering gives a text that shows whether something is missed. -/
def Tells (b : Bool) (r : Except Fault String) : Prop := ∃ s, r = .ok s ∧ Shows b s

theorem taskBox_shows (mark : Option TaskMark) (info : Record) : Shows false (taskBox mark info) := by
  have input {box : Record} (names : Nameable box) :
      Shows false ("<input" ++ attributes box ++ "> ") := by
    have tag := Shows.void "input" rfl rfl (isSound_attrList names)
    rw [isMissed_of_name (by decide) (by decide), ← attributes_eq_write] at tag
    refine (tag.append (.text (s := " ") rfl)).of_eq ?_
    apply String.ext
    simp
  unfold taskBox
  split
  · exact .empty
  · exact .empty
  · dsimp only
    split
    · exact input (nameable_cons rfl (nameable_cons rfl (nameable_single rfl _)))
    · exact input (nameable_cons rfl (nameable_cons rfl (nameable_single rfl _)))

theorem Shows.plain {b : Bool} {s : String} (name : String) (hn : isName name = true)
    (hv : isVoid name = false) (a : name ≠ "a") (h : Shows b s) : Shows b (Html.element name "" s) := by
  have around := Shows.around name hn hv a (show Attrs.isSound [] = true from rfl) h
  rwa [Attrs.write] at around

theorem renderLeaf_tells {l : Leaf} (h : Sound True excused (.leaf l info)) :
    Tells (Options.none.missesLeaf l info) (renderLeaf l info) := by
  have attrs := nodeAttributes_given info h.attrs
  have sound {base : Record} (hb : Nameable base) :
      (attrList (base.merge (given info))).isSound = true := isSound_given info h.attrs hb
  cases l with
  | text content => exact ⟨_, rfl, .escaped _⟩
  | code content => exact ⟨_, rfl, .plain _ rfl rfl (by decide) (.escaped _)⟩
  | codeBlock content language =>
      have code {base : Record} (names : Nameable base) : Tells false (do
          return "<pre>" ++ element "code" (← nodeAttributes base info) (escape content)
            ++ "</pre>\n") := by
        rw [attrs]
        refine ⟨_, rfl, ?_⟩
        have inner := Shows.around "code" rfl rfl (by decide) (sound names) (.escaped content)
        refine (Shows.plain "pre" rfl rfl (by decide) inner).line.of_eq ?_
        apply String.ext
        simp [element]
      refine code ?_
      split
      · split
        · exact nameable_nil
        · exact nameable_single rfl _
      · exact nameable_nil
  | thematicBreak =>
      refine ⟨_, rfl, ?_⟩
      exact (Shows.void "hr" rfl rfl (rfl : Attrs.isSound [] = true)).line
  | lineBreak =>
      refine ⟨_, rfl, ?_⟩
      exact (Shows.void "br" rfl rfl (rfl : Attrs.isSound [] = true)).line
  | htmlBlock content =>
      have raw : Shows (missed content) content := .of_fragment (h.raw trivial content rfl).2
      refine ⟨_, rfl, ?_⟩
      split
      · exact raw
      · exact raw.line
  | htmlInline content => exact ⟨_, rfl, .of_fragment (h.raw trivial content rfl).2⟩
  | image url alt title =>
      have names : Nameable ([(.str "src", .str url), (.str "alt", .str alt)] ++ titleAttr title) :=
        nameable_cons rfl (nameable_cons rfl (nameable_titleAttr title))
      dsimp only [renderLeaf]
      rw [attrs]
      refine ⟨_, rfl, ?_⟩
      refine (Shows.void "img" rfl rfl (sound names)).of_eq ?_
      apply String.ext
      simp
  | wikiLink r => exact ⟨_, rfl, .escaped _⟩
  | tag value => exact ⟨_, rfl, .escaped _⟩

theorem renderAll_tells {ns : List Node}
    (each : ∀ n ∈ ns, Tells (n.place == .flow && Options.none.misses inTitle n) (render tight n)) :
    Tells (showsAny Options.none.missing .flow inTitle ns) (renderAll tight ns) := by
  induction ns with
  | nil => exact ⟨_, rfl, .empty⟩
  | cons n ns ih =>
      obtain ⟨first, later⟩ := List.forall_mem_cons.mp each
      obtain ⟨s, hs, shows⟩ := first
      obtain ⟨t, ht, shows'⟩ := ih later
      rw [renderAll, hs, ht]
      exact ⟨_, rfl, shows.append shows'⟩

theorem renderCells_tells {cell : String} (hn : isName cell = true) (hv : isVoid cell = false)
    (a : cell ≠ "a") {cells : List Node} (cellKind : ∀ c ∈ cells, c.kind = .tableCell)
    (sound : ∀ c ∈ cells, Sound True excused c)
    (content : ∀ c ∈ cells, Tells (showsAny Options.none.missing .flow inTitle c.children)
      (renderAll tight c.children)) (al : List (Option String)) :
    Tells (showsAny Options.none.missing .cell inTitle cells) (renderCells tight cell al cells) := by
  induction cells generalizing al with
  | nil => exact ⟨_, by cases al <;> rfl, .empty⟩
  | cons c cells ih =>
      obtain ⟨kind, kinds⟩ := List.forall_mem_cons.mp cellKind
      obtain ⟨self, sound⟩ := List.forall_mem_cons.mp sound
      obtain ⟨inner, inners⟩ := List.forall_mem_cons.mp content
      obtain ⟨t, ht, shows'⟩ := ih kinds sound inners al.tail
      obtain ⟨own, cs, info, rfl⟩ := eq_cell_of_kind kind
      obtain ⟨s, hs, shows⟩ := inner
      change renderAll tight cs = .ok s at hs
      rw [renderCells, hs, nodeAttributes_given info self.attrs, ht]
      refine ⟨_, rfl, ?_⟩
      have style := isSound_given info self.attrs (nameable_cellStyle own al.head?.join)
      exact (Shows.around _ hn hv a style shows).append shows'

theorem renderRows_tells {cell : String} {al : List (Option String)} {rows : List Node}
    (each : ∀ r ∈ rows, Tells (r.place == .row && Options.none.misses inTitle r)
      (renderRow tight cell al r)) :
    Tells (showsAny Options.none.missing .row inTitle rows) (renderRows tight cell al rows) := by
  induction rows with
  | nil => exact ⟨_, rfl, .empty⟩
  | cons r rows ih =>
      obtain ⟨first, later⟩ := List.forall_mem_cons.mp each
      obtain ⟨s, hs, shows⟩ := first
      obtain ⟨t, ht, shows'⟩ := ih later
      rw [renderRows, hs, ht]
      exact ⟨_, rfl, shows.append shows'⟩

theorem renderRow_tells {cell : String} (hn : isName cell = true) (hv : isVoid cell = false)
    (a : cell ≠ "a") {row : Node} (shape : row.isCellRow = true)
    (sound : ∀ c ∈ row.children, Sound True excused c)
    (content : ∀ c ∈ row.children, Tells (showsAny Options.none.missing .flow inTitle c.children)
      (renderAll tight c.children)) (al : List (Option String)) :
    Tells (row.place == .row && Options.none.misses inTitle row) (renderRow tight cell al row) := by
  obtain ⟨h, cells, info, rfl⟩ := eq_row_of_isCellRow shape
  have kinds : ∀ c ∈ cells, c.kind = .tableCell := by simpa [isCellRow] using shape
  obtain ⟨s, hs, shows⟩ := renderCells_tells hn hv a kinds sound content al
  rw [renderRow, hs]
  exact ⟨_, rfl, (Shows.plain "tr" rfl rfl (by decide) shows).line⟩

/-- A container tells what its content does, and a link what it is itself. -/
theorem render_branch_tells {c : Container} {cs : List Node} (h : Sound True excused (.branch c cs info))
    (content : ∀ tight, Tells (showsAny Options.none.missing .flow inTitle cs) (renderAll tight cs))
    (tight : Bool) :
    Tells ((Node.branch c cs info).place == .flow && Options.none.misses inTitle (.branch c cs info))
      (render tight (.branch c cs info)) := by
  obtain ⟨s, hs, shows⟩ := content tight
  have attrs := nodeAttributes_given info h.attrs
  have sound {base : Record} (hb : Nameable base) :
      (attrList (base.merge (given info))).isSound = true := isSound_given info h.attrs hb
  cases c with
  | document => exact ⟨s, hs, shows⟩
  | heading level =>
      obtain ⟨hn, hv⟩ := heading_name level
      rw [render, hs, attrs]
      refine ⟨_, rfl, (Shows.around _ hn hv ?_ (sound nameable_nil) shows).line⟩
      intro same
      have first := congrArg (fun name => name.toList.head?) same
      simp at first
  | paragraph =>
      rw [render, hs, attrs]
      refine ⟨_, rfl, ?_⟩
      split
      · exact shows
      · exact (Shows.around "p" rfl rfl (by decide) (sound nameable_nil) shows).line
  | blockQuote =>
      obtain ⟨t, ht, shows⟩ := content false
      rw [render, attrs, ht]
      refine ⟨_, rfl, ?_⟩
      have body := (Shows.text (s := "\n") rfl).append shows
      have tag : info.get? tagKey = none ∨ info.get? tagKey = some (.str "div") := h.tag trivial
      rcases tag with none | div
      · rw [none]
        exact (Shows.around "blockquote" rfl rfl (by decide) (sound nameable_nil) body).line
      · rw [div]
        exact (Shows.around "div" rfl rfl (by decide) (sound nameable_nil) body).line
  | list ordered start listTight =>
      obtain ⟨t, ht, shows⟩ := content listTight
      have names : Nameable (if ordered && start != 1 then [(.str "start", .int start)] else []) := by
        split
        · exact nameable_single rfl _
        · exact nameable_nil
      rw [render, attrs, ht]
      refine ⟨_, rfl, ?_⟩
      have body := (Shows.text (s := "\n") rfl).append shows
      refine (Shows.around _ ?_ ?_ ?_ (sound names) body).line
      · cases ordered <;> rfl
      · cases ordered <;> rfl
      · cases ordered <;> decide
  | listItem mark =>
      rw [render, hs, attrs]
      refine ⟨_, rfl, ?_⟩
      have item := (taskBox_shows mark info).append shows
      exact (Shows.around "li" rfl rfl (by decide) (sound nameable_nil) item).line
  | tableRow => exact ⟨"", rfl, .empty⟩
  | tableCell => exact ⟨"", rfl, .empty⟩
  | emphasis =>
      rw [render, hs]
      exact ⟨_, rfl, .plain _ rfl rfl (by decide) shows⟩
  | strong =>
      rw [render, hs]
      exact ⟨_, rfl, .plain _ rfl rfl (by decide) shows⟩
  | strikethrough =>
      rw [render, hs]
      exact ⟨_, rfl, .plain _ rfl rfl (by decide) shows⟩
  | link url title =>
      have names : Nameable ((.str "href", .str url) :: titleAttr title) :=
        nameable_cons rfl (nameable_titleAttr title)
      rw [render, hs, attrs]
      have link := Shows.element "a" rfl rfl (sound names) shows
      have own : Options.none.missing.link inTitle url title info =
          isMissed ("a", attrList (linkRecord url title info)) := by
        change (Options.none.meets inTitle).missesLink url title info = _
        rw [Options.meets_none]
        rfl
      rw [← linkRecord, ← own] at link
      exact ⟨_, rfl, link⟩
  | highlight =>
      rw [render, hs]
      have marks : Shows false "==" := .text rfl
      refine ⟨_, rfl, ?_⟩
      have whole := (marks.append shows).append marks
      rwa [Bool.or_false] at whole

/-- A sound node tells what it shows if all nodes below it do. -/
theorem render_tells_of_below {n : Node} (sound : All (Sound True excused) n)
    (below : ∀ c ∈ n.children, ∀ m ∈ c.nodes, ∀ tight,
      Tells (m.place == .flow && Options.none.misses inTitle m) (render tight m)) (tight : Bool) :
    Tells (n.place == .flow && Options.none.misses inTitle n) (render tight n) := by
  cases n with
  | leaf l info =>
      have leaf := renderLeaf_tells sound.self
      rw [← Options.meets_none inTitle] at leaf
      exact leaf
  | branch c cs info =>
      refine render_branch_tells sound.self (fun tight => ?_) tight
      exact renderAll_tells fun k hk => below k hk k k.self_mem_nodes tight
  | table header rows al info =>
      have row (cell : String) (hn : isName cell = true) (hv : isVoid cell = false) (a : cell ≠ "a")
          {r : Node} (hr : r ∈ header.toList ++ rows) :
          Tells (r.place == .row && Options.none.misses inTitle r) (renderRow tight cell al r) := by
        have shape : r.isCellRow = true := List.all_eq_true.mp sound.self.tabular r hr
        have ofRow : All (Sound True excused) r := sound.child hr
        refine renderRow_tells hn hv a shape (fun c hc => (ofRow.child hc).self) ?_ al
        intro c hc
        refine renderAll_tells fun k hk => below r hr k ?_ tight
        exact mem_nodes.mpr (.inr ⟨c, hc, mem_nodes.mpr (.inr ⟨k, hk, k.self_mem_nodes⟩)⟩)
      have attrs := nodeAttributes_given info sound.self.attrs []
      have table {b : Bool} {content : String} (h : Shows b content) :
          Shows b (element "table" (attrList (Record.merge [] (given info))).write ("\n" ++ content)
            ++ "\n") := by
        have inner := (Shows.text (s := "\n") rfl).append h
        have own := isSound_given info sound.self.attrs nameable_nil
        exact (Shows.around _ rfl rfl (by decide) own inner).line
      have part {b : Bool} {content : String} (name : String) (hn : isName name = true)
          (hv : isVoid name = false) (a : name ≠ "a") (h : Shows b content) :
          Shows b (element name "" ("\n" ++ content) ++ "\n") := by
        have inner := (Shows.text (s := "\n") rfl).append h
        exact (Shows.plain _ hn hv a inner).line
      obtain ⟨body, hbody, shows⟩ := renderRows_tells fun r hr =>
        row "td" rfl rfl (by decide) (List.mem_append_right header.toList hr)
      have rest : Shows (showsAny Options.none.missing .row inTitle rows)
          (if rows.isEmpty then "" else element "tbody" "" ("\n" ++ body) ++ "\n") := by
        cases rows with
        | nil => exact .empty
        | cons => exact part "tbody" rfl rfl (by decide) shows
      cases header with
      | none =>
          rw [render, attrs, hbody]
          exact ⟨_, rfl, table rest⟩
      | some header =>
          obtain ⟨head, hhead, shows'⟩ := row "th" rfl rfl (by decide)
            (List.mem_append_left rows (List.mem_singleton.mpr rfl))
          rw [render, attrs, hhead, hbody]
          refine ⟨_, rfl, ?_⟩
          have whole := table ((part "thead" rfl rfl (by decide) shows').append rest)
          exact whole.of_eq (by simp only [String.append_assoc])

/-- The markup of a sound tree misses what the tree misses. -/
theorem render_tells (inTitle : Bool) {n : Node} (sound : All (Sound True excused) n) :
    ∀ m ∈ n.nodes, ∀ tight,
      Tells (m.place == .flow && Options.none.misses inTitle m) (render tight m) := by
  induction n using induct_children with
  | step n ih =>
      have below : ∀ c ∈ n.children, ∀ m ∈ c.nodes, ∀ tight,
          Tells (m.place == .flow && Options.none.misses inTitle m) (render tight m) :=
        fun c hc => ih c hc (sound.child hc)
      intro m hm
      rcases mem_nodes.mp hm with rfl | ⟨c, hc, hm⟩
      · exact render_tells_of_below sound below
      · exact below c hc m hm

/-- The title of a callout misses what its nodes miss. -/
theorem ofInline_tells (inTitle : Bool) {ns : List Node} {title : String}
    (sound : ∀ n ∈ ns, All (Sound True excused) n) (rendered : ofInline ns = .ok title) :
    Shows (showsAny Options.none.missing .flow inTitle ns) title := by
  obtain ⟨s, hs, shows⟩ := renderAll_tells fun n hn =>
    render_tells inTitle (sound n hn) n n.self_mem_nodes false
  rw [ofInline_eq, hs] at rendered
  cases rendered
  exact shows

end Html

end NoteMarkup
