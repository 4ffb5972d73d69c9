import NoteMarkup.Proofs.Markup
import NoteMarkup.Proofs.Rendering
import NoteMarkup.Proofs.Visits

/-! Built-in stages keep trees sound. What a stage adds to the information on a node can be used by
every other stage, and the raw markup that it makes is a fragment, titles of callouts included. -/

namespace NoteMarkup

open Html Node Stage

variable {safe excused : Prop} {n m : Node} {as new : Record}

/-- Render attributes as stages add them. -/
def MadeAttrs (new : Record) : Prop :=
  ∀ e ∈ new, ∃ s, e.1 = .str s ∧ isName s = true ∧ (s = "class" → ∃ items, e.2 = .list items) ∧
    (s = "id" → e.2.isKey = true)

theorem MadeAttrs.nil : MadeAttrs [] := nofun

/-- An attribute that is neither a list of classes nor an id can have any value. -/
theorem MadeAttrs.other {name : String} {v : Value} (hn : isName name = true) (hc : name ≠ "class")
    (hi : name ≠ "id") (h : MadeAttrs new) : MadeAttrs ((.str name, v) :: new) :=
  List.forall_mem_cons.mpr
    ⟨⟨name, rfl, hn, fun e => (hc e).elim, fun e => (hi e).elim⟩, h⟩

theorem MadeAttrs.classes (items : List Value) (h : MadeAttrs new) :
    MadeAttrs ((.str "class", .list items) :: new) :=
  List.forall_mem_cons.mpr ⟨⟨"class", rfl, rfl, fun _ => ⟨items, rfl⟩, nofun⟩, h⟩

theorem MadeAttrs.id {v : Value} (hv : v.isKey = true) : MadeAttrs [(Blocks.idKey, v)] :=
  List.forall_mem_cons.mpr ⟨⟨"id", rfl, rfl, nofun, fun _ => hv⟩, nofun⟩

theorem MadeAttrs.named (h : MadeAttrs new) : new.Named := fun e he =>
  (h e he).imp fun _ hs => hs.1

theorem MadeAttrs.nameable (h : MadeAttrs new) : Nameable new := fun e he =>
  (h e he).imp fun _ hs => ⟨hs.1, hs.2.1⟩

namespace UsableAttrs

theorem nil : UsableAttrs safe [] := ⟨fun _ => nameable_nil, fun _ => List.nodup_nil, nofun, nofun⟩

theorem merge (h : UsableAttrs safe as) (made : MadeAttrs new) :
    UsableAttrs safe (as.merge new) where
  nameable s := (h.nameable s).merge made.nameable
  distinct s := Record.distinct_merge (h.distinct s) made.named
  classes v hv := by
    rcases Record.get?_merge made.named hv with added | old
    · obtain ⟨s, hs, -, classes, -⟩ := made _ added
      exact classes (Value.str.inj hs).symm
    · exact h.classes v old
  id v hv := by
    rcases Record.get?_merge made.named hv with added | old
    · obtain ⟨s, hs, -, -, id⟩ := made _ added
      exact id (Value.str.inj hs).symm
    · exact h.id v old

theorem eraseId (h : UsableAttrs safe as) : UsableAttrs safe (as.erase Blocks.idKey) where
  nameable s e he := h.nameable s e (Entries.mem_of_mem_erase he).1
  distinct s := (h.distinct s).erase _
  classes v hv := h.classes v (by rwa [Blocks.idKey, Record.get?_erase_of_ne (by decide)] at hv)
  id v hv := by
    rw [Blocks.idKey, Record.get?_erase_self] at hv
    cases hv

end UsableAttrs

namespace Sound

/-- Information on a sound node can be changed as long as it stays usable. -/
theorem withInfo {info : Record} (h : Sound safe excused n)
    (attrs : ∃ as, HasAttrs info as ∧ UsableAttrs safe as)
    (tag : info.get? tagKey = n.info.get? tagKey)
    (marker : ((info.get? Blocks.markerKey).getD .null).isKey = true ∨ excused)
    (generated : info.get? generatedKey = n.info.get? generatedKey) :
    Sound safe excused (n.withInfo info) where
  attrs := by rwa [info_withInfo]
  tag := by
    rw [info_withInfo, tag]
    exact h.tag
  marker := by rwa [info_withInfo]
  raw s content hc := by
    have same : (n.withInfo info).raw? = n.raw? := by rcases n with (_ | _) | _ | _ <;> rfl
    rw [same] at hc
    rw [info_withInfo, isGenerated, generated]
    exact h.raw s content hc
  tabular := by
    have same : (n.withInfo info).isTabular = n.isTabular := by cases n <;> rfl
    rw [same]
    exact h.tabular

/-- Another key of the information can be set to anything. -/
theorem set_other {k : String} {v : Value} (h : Sound safe excused n) (ha : k ≠ "render_attrs")
    (ht : k ≠ "html_tag") (hm : k ≠ "block_reference") (hg : k ≠ "generated") :
    Sound safe excused (n.withInfo (n.info.set (.str k) v)) := by
  obtain ⟨as, has, usable⟩ := h.attrs
  refine h.withInfo ⟨as, (hasAttrs_set_of_ne ha v).mpr has, usable⟩ (Record.get?_set_of_ne ht) ?_
    (Record.get?_set_of_ne hg)
  rw [Blocks.markerKey, Record.get?_set_of_ne hm]
  exact h.marker

theorem styled (h : Sound safe excused n) (has : HasAttrs n.info as) (made : MadeAttrs new) :
    Sound safe excused (n.styled as new) := by
  obtain ⟨bs, has', usable⟩ := h.attrs
  rw [has'.unique has] at usable
  refine h.withInfo ⟨_, .set_self _ _, usable.merge made⟩ (Record.get?_set_of_ne (by decide)) ?_
    (Record.get?_set_of_ne (by decide))
  rw [attrsKey, Blocks.markerKey, Record.get?_set_of_ne (by decide)]
  exact h.marker

/-- For a container only its information counts. -/
theorem rebranch {c d : Container} {cs ds : List Node} {info : Record}
    (h : Sound safe excused (.branch c cs info)) : Sound safe excused (.branch d ds info) :=
  ⟨h.attrs, h.tag, h.marker, nofun, rfl⟩

/-- A node without information, other than raw markup and tables. -/
theorem fresh (hi : n.info = []) (hr : n.raw? = none) (ht : n.isTabular = true) :
    Sound safe excused n where
  attrs := ⟨[], .of_none (by rw [hi]; rfl), .nil⟩
  tag _ := .inl (by rw [hi]; rfl)
  marker := .inl (by rw [hi]; rfl)
  raw _ content hc := by rw [hr] at hc; cases hc
  tabular := ht

theorem ofText (t : String) : Sound safe excused (Node.ofText t) := .fresh rfl rfl rfl

end Sound

/-- Every node of the tree is sound. -/
abbrev SoundTree (safe excused : Prop) (n : Node) : Prop := All (Sound safe excused) n

namespace SoundTree

theorem withInfo {info : Record} (h : SoundTree safe excused n)
    (self : Sound safe excused (n.withInfo info)) : SoundTree safe excused (n.withInfo info) := by
  refine all_iff.mpr ⟨self, ?_⟩
  rw [children_withInfo]
  exact (all_iff.mp h).2

theorem styled (h : SoundTree safe excused n) (has : HasAttrs n.info as) (made : MadeAttrs new) :
    SoundTree safe excused (n.styled as new) :=
  h.withInfo (h.self.styled has made)

theorem ofText (t : String) : SoundTree safe excused (Node.ofText t) := all_leaf.mpr (.ofText t)

/-- Raw markup that a stage makes, with nothing that other stages read but the mark that it is made. -/
theorem generated {l : Leaf} {info : Record} {content : String}
    (hr : (Node.leaf l info).raw? = some content) (fragment : safe → Fragment content)
    (ha : info.get? attrsKey = none) (ht : info.get? tagKey = none)
    (hm : info.get? Blocks.markerKey = none) (hg : isGenerated info = true) :
    SoundTree safe excused (.leaf l info) := by
  refine all_leaf.mpr ⟨⟨[], .of_none ha, .nil⟩, fun _ => .inl ht, .inl ?_, ?_, rfl⟩
  · change ((info.get? Blocks.markerKey).getD .null).isKey = true
    rw [hm]
    rfl
  · intro s content' hc
    rw [hr] at hc
    cases hc
    exact ⟨hg, fragment s⟩

theorem generatedInline {content : String} (fragment : safe → Fragment content) :
    SoundTree safe excused (Node.generatedInline content) :=
  .generated rfl fragment rfl rfl rfl rfl

theorem generatedBlock {content : String} (fragment : safe → Fragment content) :
    SoundTree safe excused (Node.generatedBlock content) :=
  .generated rfl fragment rfl rfl rfl rfl

/-- Sound inline nodes have markup. -/
theorem ofInline {ns : List Node} (h : ∀ n ∈ ns, SoundTree safe excused n) :
    ∃ s, Html.ofInline ns = .ok s ∧ (safe → Fragment s) := by
  obtain ⟨s, hs, fragment⟩ := renderAll_renders fun n hn =>
    render_sound (h n hn) n n.self_mem_nodes false
  exact ⟨s, (ofInline_eq ns).trans hs, fragment⟩

end SoundTree

/-- What later stages and the renderer rely on in a node that is replaced: documents stay documents,
cells stay cells, and rows of cells stay rows of cells. -/
structure KeepsPlace (n m : Node) : Prop where
  document : n.kind = .document → m.kind = .document
  cell : n.kind = .tableCell → m.kind = .tableCell
  row : n.isCellRow = true → m.isCellRow = true

namespace KeepsPlace

theorem refl (n : Node) : KeepsPlace n n := ⟨id, id, id⟩

theorem trans {k : Node} (h : KeepsPlace n m) (h' : KeepsPlace m k) : KeepsPlace n k :=
  ⟨h'.document ∘ h.document, h'.cell ∘ h.cell, h'.row ∘ h.row⟩

/-- Any other node can be replaced by anything. -/
theorem of_kind (hd : n.kind ≠ .document) (hc : n.kind ≠ .tableCell) (hr : n.kind ≠ .tableRow) :
    KeepsPlace n m := by
  refine ⟨fun h => (hd h).elim, fun h => (hc h).elim, fun h => ?_⟩
  cases n with
  | branch c cs info =>
      cases c with
      | tableRow => exact (hr rfl).elim
      | _ => cases h
  | _ => cases h

end KeepsPlace

/-- The replacement is sound and can stand where the node stood. -/
def SoundFor (safe excused : Prop) (n m : Node) : Prop := SoundTree safe excused m ∧ KeepsPlace n m

namespace Stage

variable {o : Options} {inLink : Bool} {r : Run}

theorem Links.Replacement.sound (h : Replacement m) : SoundTree safe excused m := by
  cases h with
  | link res =>
      unfold linkNode
      split
      · exact .generatedInline fun _ => res.toHtml_fragment
      · exact all_branch.mpr ⟨.fresh rfl rfl rfl, List.forall_mem_singleton.mpr (SoundTree.ofText _)⟩
  | image url d =>
      refine SoundTree.styled (all_leaf.mpr (.fresh rfl rfl rfl)) (.of_none rfl) ?_
      exact .other rfl (by decide) (by decide) (.other rfl (by decide) (by decide)
        (.other rfl (by decide) (by decide) .nil))
  | video url => exact .generatedInline fun _ => mediaMarkup_fragment rfl rfl url
  | audio url => exact .generatedInline fun _ => mediaMarkup_fragment rfl rfl url
  | pdf url => exact .generatedInline fun _ => pdf_fragment url
  | transclude url anchor label =>
      exact .generated rfl (fun _ => transcludeMarkup_fragment url anchor label) rfl rfl rfl rfl

theorem Links.Rewrites.sound (h : Rewrites n m) (sound : SoundTree safe excused n) :
    SoundFor safe excused n m := by
  cases h with
  | keep => exact ⟨sound, .refl _⟩
  | reference kind replaced =>
      exact ⟨replaced.sound, .of_kind (by rw [kind]; decide) (by rw [kind]; decide)
        (by rw [kind]; decide)⟩

theorem Highlights.Rewrites.sound (h : Rewrites n m) (sound : SoundTree safe excused n) :
    SoundFor safe excused n m := by
  cases h with
  | keep => exact ⟨sound, .refl _⟩
  | span =>
      refine ⟨.generatedInline fun _ => Highlight.markup_fragment (.escaped _), ?_⟩
      exact .of_kind nofun nofun nofun

theorem Tags.Rewrites.sound (h : Rewrites n m) (sound : SoundTree safe excused n) :
    SoundFor safe excused n m := by
  cases h with
  | keep => exact ⟨sound, .refl _⟩
  | text => exact ⟨.ofText _, .of_kind nofun nofun nofun⟩
  | @link value info context =>
      have bare : SoundTree safe excused (.branch (.link (context.tagUrl (Slug.ofTag value)) none)
          [Node.ofText (Slug.ofTag value)] []) :=
        all_branch.mpr ⟨.fresh rfl rfl rfl, List.forall_mem_singleton.mpr (SoundTree.ofText _)⟩
      exact ⟨bare.styled (.of_none rfl) (.classes [.str "tag-link"] .nil), .of_kind nofun nofun nofun⟩

theorem RawMarkup.Rewrites.sound (h : Rewrites n m) (sound : SoundTree safe excused n) :
    SoundFor safe excused n m := by
  cases h with
  | keep => exact ⟨sound, .refl _⟩
  | @block content info new made =>
      have self := sound.self
      refine ⟨all_leaf.mpr ⟨self.attrs, self.tag, self.marker, ?_, rfl⟩, .of_kind nofun nofun nofun⟩
      intro s _ _
      exact absurd (self.raw s content rfl).1 (by rw [Node.info, made]; decide)
  | @inline content info new made =>
      have self := sound.self
      refine ⟨all_leaf.mpr ⟨self.attrs, self.tag, self.marker, ?_, rfl⟩, .of_kind nofun nofun nofun⟩
      intro s _ _
      exact absurd (self.raw s content rfl).1 (by rw [Node.info, made]; decide)

theorem Media.Rewrites.sound {markup : String → Option String}
    (made : ∀ url s, markup url = some s → Fragment s) (h : Rewrites markup n m)
    (sound : SoundTree safe excused n) : SoundFor safe excused n m := by
  cases h with
  | keep => exact ⟨sound, .refl _⟩
  | embed h => exact ⟨.generatedInline fun _ => made _ _ h, .of_kind nofun nofun nofun⟩

theorem Media.AppLinked.sound (h : AppLinked n m) (sound : SoundTree safe excused n) :
    SoundFor safe excused n m := by
  cases h with
  | keep => exact ⟨sound, .refl _⟩
  | mark _ has => exact ⟨sound.styled has (.classes _ .nil), .of_kind nofun nofun nofun⟩

theorem Blocks.DiagramMarked.sound (h : DiagramMarked n m) (sound : SoundTree safe excused n) :
    SoundFor safe excused n m := by
  cases h with
  | keep => exact ⟨sound, .refl _⟩
  | mark has =>
      refine ⟨sound.styled has (.classes _ (.other rfl ?_ ?_ .nil)), .of_kind nofun nofun nofun⟩
      · decide
      · decide

theorem Blocks.TaskMarked.sound (h : TaskMarked n m) (sound : SoundTree safe excused n) :
    SoundFor safe excused n m := by
  cases h with
  | keep => exact ⟨sound, .refl _⟩
  | mark has =>
      have interactive := sound.withInfo (sound.self.set_other (k := "checkbox_interactive") (v := .bool true)
        (by decide) (by decide) (by decide) (by decide))
      refine ⟨interactive.styled ?_ (.classes _ .nil), .of_kind nofun nofun nofun⟩
      exact (hasAttrs_set_of_ne (by decide) _).mpr has

theorem Callouts.attributes_made (d : Callout.Directive) : MadeAttrs d.attributes :=
  .classes _ <| .other rfl (by decide) (by decide) <| .other rfl (by decide) (by decide) <|
    .other rfl (by decide) (by decide) .nil

theorem Callouts.titleNodes_sound (d : Callout.Directive) {siblings : List Node}
    (h : ∀ n ∈ siblings, SoundTree safe excused n) :
    ∀ n ∈ titleNodes d siblings, SoundTree safe excused n := by
  unfold titleNodes
  split
  · split
    · exact List.forall_mem_singleton.mpr (SoundTree.ofText _)
    · exact h
  · split
    · exact List.forall_mem_singleton.mpr (SoundTree.ofText _)
    · exact List.forall_mem_cons.mpr ⟨SoundTree.ofText _, h⟩

/-- The inline nodes and the blocks that a callout is made from are sound. -/
theorem Callouts.opening_sound {cs : List Node} {opening : Opening}
    (opens : opening? cs = some opening) (h : ∀ n ∈ cs, SoundTree safe excused n) :
    (∀ n ∈ opening.siblings, SoundTree safe excused n) ∧
      ∀ n ∈ opening.rest, SoundTree safe excused n := by
  obtain ⟨content, textInfo, firstInfo, rfl⟩ := opening?_eq_some opens
  obtain ⟨first, rest⟩ := List.forall_mem_cons.mp h
  exact ⟨fun n hn => first.child (List.mem_cons_of_mem _ hn), rest⟩

theorem Callouts.wrapper_sound {rest : List Node} (h : ∀ n ∈ rest, SoundTree safe excused n) :
    SoundTree safe excused (wrapper rest) := by
  refine all_branch.mpr ⟨?_, h⟩
  have attrs : MadeAttrs [(.str "class", .list [.str "callout-content"])] := .classes _ .nil
  exact ⟨⟨_, .inr rfl, UsableAttrs.nil.merge attrs⟩, fun _ => .inr rfl, .inl rfl, nofun, rfl⟩

theorem Callouts.Rewrites.sound (h : Rewrites n m) (sound : SoundTree safe excused n) :
    SoundFor safe excused n m := by
  cases h with
  | keep => exact ⟨sound, .refl _⟩
  | @rebuild cs info opening title as _ opens rendered has =>
      refine ⟨?_, .of_kind nofun nofun nofun⟩
      obtain ⟨self, below⟩ := all_branch.mp sound
      obtain ⟨siblings, rest⟩ := opening_sound opens below
      have fragment : safe → Fragment title := by
        obtain ⟨s, hs, fragment⟩ := SoundTree.ofInline (titleNodes_sound opening.directive siblings)
        cases hs.symm.trans rendered
        exact fragment
      have quote : Sound safe excused (.branch .blockQuote cs
          (info.set calloutKey opening.directive.toValue)) :=
        self.set_other (by decide) (by decide) (by decide) (by decide)
      refine SoundTree.styled (all_branch.mpr ⟨quote.rebranch, fun m hm => ?_⟩)
        ((hasAttrs_set_of_ne (by decide) _).mpr has) (attributes_made _)
      rcases mem_body hm with rfl | rfl | rfl
      · exact SoundTree.generatedBlock fun s => Callout.titleMarkup_fragment (fragment s) _
      · exact all_branch.mpr ⟨.fresh rfl rfl rfl, List.forall_mem_singleton.mpr (SoundTree.ofText _)⟩
      · exact wrapper_sound rest

theorem Blocks.Touched.sound (h : Touched n m) (sound : SoundTree safe excused n) :
    SoundTree safe excused m := by
  induction h with
  | refl => exact sound
  | @unmarked m _ ih =>
      obtain ⟨as, has, usable⟩ := ih.self.attrs
      refine ih.withInfo (ih.self.withInfo ⟨as, (hasAttrs_erase_of_ne (by decide)).mpr has, usable⟩
        (Record.get?_erase_of_ne (by decide)) (.inl ?_) (Record.get?_erase_of_ne (by decide)))
      rw [markerKey, Record.get?_erase_self]
      rfl
  | named _ has keyed ih => exact ih.styled has (.id keyed)

theorem Blocks.Marked.sound (h : Marked n m) (sound : SoundTree safe excused n) :
    SoundFor safe excused n m := by
  -- what is handed on among the children of a node is sound
  have handed {cs out : List Node} (below : ∀ n ∈ cs, SoundTree safe excused n)
      (touched : ∀ m ∈ out, ∃ n ∈ cs, Touched n m) : ∀ m ∈ out, SoundTree safe excused m := by
    intro m hm
    obtain ⟨n, hn, h⟩ := touched m hm
    exact h.sound (below n hn)
  cases h with
  | keep => exact ⟨sound, .refl _⟩
  | @deferred content info id =>
      refine ⟨?_, .of_kind nofun nofun nofun⟩
      obtain ⟨as, has, usable⟩ := sound.self.attrs
      refine SoundTree.withInfo sound (sound.self.withInfo
        ⟨as, (hasAttrs_set_of_ne (by decide) _).mpr has, usable⟩
        (Record.get?_set_of_ne (by decide)) (.inl ?_) (Record.get?_set_of_ne (by decide)))
      rw [markerKey, Record.get?_set_self]
      rfl
  | @paragraph content last info as id texts has =>
      obtain ⟨self, below⟩ := all_branch.mp sound
      refine ⟨?_, .of_kind nofun nofun nofun⟩
      refine SoundTree.styled (all_branch.mpr ⟨self.rebranch, fun m hm => ?_⟩) has (.id rfl)
      rcases List.mem_append.mp hm with front | back
      · exact below m (List.dropLast_subset _ front)
      · obtain ⟨t, rfl⟩ := texts m back
        exact SoundTree.ofText t
  | @handedOn c cs out info hands touched =>
      obtain ⟨self, below⟩ := all_branch.mp sound
      refine ⟨all_branch.mpr ⟨self.rebranch, handed below touched⟩, id, id, ?_⟩
      cases c <;> cases hands <;> rintro ⟨⟩
  | @adopted mark cs content rest info firstInfo attrs as id touched readable present keyed has =>
      obtain ⟨self, below⟩ := all_branch.mp sound
      obtain ⟨first, rest⟩ := List.forall_mem_cons.mp (handed below touched)
      obtain ⟨bs, has', usable⟩ := first.self.attrs
      cases readable.symm.trans has'.attrsOf
      refine ⟨?_, .of_kind nofun nofun nofun⟩
      refine SoundTree.styled (all_branch.mpr ⟨self.rebranch, List.forall_mem_cons.mpr ⟨?_, rest⟩⟩)
        has (.id keyed)
      refine first.withInfo (first.self.withInfo ⟨_, .set_self _ _, usable.eraseId⟩
        (Record.get?_set_of_ne (by decide)) ?_ (Record.get?_set_of_ne (by decide)))
      rw [attrsKey, markerKey, Record.get?_set_of_ne (by decide)]
      exact first.self.marker

theorem Media.classesOf_ok (h : UsableAttrs safe as) : ∃ classes, classesOf as = .ok classes := by
  unfold classesOf
  split
  · exact ⟨_, rfl⟩
  · next v hv =>
      obtain ⟨items, rfl⟩ := h.classes v hv
      exact ⟨items, rfl⟩

/-- What a visit of a built-in stage gives is sound if the node is. It stops only at an id that is
to be handed on and cannot be a key. -/
theorem builtin_visit_sound {s : Stage} (hs : s ∈ builtin) (sound : SoundTree safe excused n) :
    Visited (s.transformation.visit o inLink n) r (SoundFor safe excused n) excused := by
  have unstyled (none : ¬ ∃ as, HasAttrs n.info as) : excused :=
    (none (sound.self.attrs.imp fun _ h => h.1)).elim
  simp only [builtin, List.mem_cons, List.not_mem_nil, or_false] at hs
  rcases hs with rfl | rfl | rfl | rfl | rfl | rfl | rfl | rfl | rfl | rfl | rfl | rfl
  · exact Links.visit_yields.imp fun m h => h.sound sound
  · exact Highlights.visit_yields.imp fun m h => h.sound sound
  · exact Tags.visit_yields.imp fun m h => h.sound sound
  · exact RawMarkup.visit_yields.imp fun m h => h.sound sound
  · refine Media.visitVideo_yields.imp fun m h => h.sound ?_ sound
    intro url s made
    unfold Media.video? at made
    split at made
    · cases made
      exact MediaUrl.videoMarkup_fragment url
    · cases made
  · refine (Callouts.visit_yields ?_ unstyled).imp fun m h => h.sound sound
    intro cs opening e hcs opens stops
    subst hcs
    have siblings := (Callouts.opening_sound opens fun n hn => sound.child hn).1
    obtain ⟨s, hs, -⟩ := SoundTree.ofInline
      (Callouts.titleNodes_sound opening.directive siblings)
    cases hs.symm.trans stops
  · exact (Blocks.visitDiagram_yields unstyled).imp fun m h => h.sound sound
  · refine (Blocks.visitMarker_yields unstyled ?_ ?_ ?_).imp fun m h => h.sound sound
    · rintro ⟨c, hc, unkeyed | none⟩
      · exact (sound.child hc).self.marker.elim (by rw [unkeyed]; rintro ⟨⟩) id
      · exact (none ((sound.child hc).self.attrs.imp fun _ h => h.1)).elim
    · intro c hc m e touched stops
      obtain ⟨as, has, -⟩ := (touched.sound (sound.child hc)).self.attrs
      cases has.attrsOf.symm.trans stops
    · intro c hc m attrs id touched readable present unkeyed
      obtain ⟨as, has, usable⟩ := (touched.sound (sound.child hc)).self.attrs
      cases has.attrsOf.symm.trans readable
      exact absurd (usable.id id present) (by rw [unkeyed]; decide)
  · refine Media.visitPlayer_yields.imp fun m h => h.sound ?_ sound
    intro url s made
    obtain ⟨embed, -, rfl⟩ := Option.map_eq_some_iff.mp made
    exact MediaUrl.playerMarkup_fragment embed
  · refine Media.visitStatus_yields.imp fun m h => h.sound ?_ sound
    intro url s made
    unfold Media.status? at made
    split at made
    · cases made
      exact MediaUrl.statusMarkup_fragment url
    · cases made
  · exact (Blocks.visitTask_yields unstyled).imp fun m h => h.sound sound
  · refine (Media.visitAppLink_yields unstyled ?_).imp fun m h => h.sound sound
    intro as e has stops
    obtain ⟨bs, has', usable⟩ := sound.self.attrs
    obtain ⟨classes, ok⟩ := Media.classesOf_ok (has'.unique has ▸ usable)
    cases ok.symm.trans stops

/-- A node of a sound tree is still sound when all its children are replaced. -/
theorem sound_of_renewed {n' : Node} (h : Sound safe excused n)
    (renewed : Renewed (SoundFor safe excused) n n') :
    SoundTree safe excused n' ∧ KeepsPlace n n' := by
  have child := fun c (hc : c ∈ n'.children) => renewed.exists_child hc
  have below : ∀ c ∈ n'.children, SoundTree safe excused c := by
    intro c hc
    obtain ⟨b, -, sound, -⟩ := child c hc
    exact sound
  cases renewed with
  | leaf => exact ⟨all_iff.mpr ⟨h, below⟩, .refl _⟩
  | @branch c info cs new related =>
      refine ⟨all_iff.mpr ⟨h.rebranch, below⟩, id, id, fun row => ?_⟩
      cases c with
      | tableRow isHeader =>
          refine List.all_eq_true.mpr fun c hc => ?_
          obtain ⟨b, hb, -, place⟩ := exists_of_mem_right related hc
          have cell := List.all_eq_true.mp row b hb
          exact beq_iff_eq.mpr (place.cell (beq_iff_eq.mp cell))
      | _ => cases row
  | @table al info header header' rows new ofHeader ofRows =>
      have tabular : (Node.table header' new al info).isTabular = true := by
        refine List.all_eq_true.mpr fun c hc => ?_
        obtain ⟨b, hb, -, place⟩ := child c hc
        exact place.row (List.all_eq_true.mp h.tabular b hb)
      refine ⟨all_iff.mpr ⟨⟨h.attrs, h.tag, h.marker, nofun, tabular⟩, below⟩, id, id, id⟩

theorem builtin_run_sound {s : Stage} (hs : s ∈ builtin) (sound : SoundTree safe excused n) :
    Visited (s.transformation.visit.run o n) r (SoundFor safe excused n) excused := by
  refine transform_yields (fun inLink n n' r h renewed => ?_) n false r sound
  obtain ⟨sound, place⟩ := sound_of_renewed h renewed
  exact (builtin_visit_sound hs sound).imp fun m ⟨sound, place'⟩ => ⟨sound, place.trans place'⟩

end Stage

end NoteMarkup
