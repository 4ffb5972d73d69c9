import NoteMarkup.Proofs.BlockMarkerSyntax
import NoteMarkup.Proofs.Escaping
import NoteMarkup.Proofs.LoneMarkers
import NoteMarkup.Proofs.Processing

/-! Ids that links can aim at. The block before a lone marker gets the id as an attribute, and the markup
of the document shows it if the block is shown as an element. Raw markup is not: it stands in the
document as it is written. -/

namespace NoteMarkup

namespace BlockMarker

/-- An id is made of letters, digits, `-` and `_`. -/
theorem isIdChar_of_parse? {text : String} {marker : BlockMarker} (h : parse? text = some marker) :
    ∀ c ∈ marker.id.toList, isIdChar c = true := by
  obtain ⟨front, ends, -⟩ := parse?_eq_some_iff.mp h
  exact ends.isIdChar

theorem escape_id {text : String} {marker : BlockMarker} (h : parse? text = some marker) :
    Html.escape marker.id = marker.id := by
  have plain : ∀ c ∈ marker.id.toList, Html.escapeChar c = [c] := by
    intro c hc
    have ne (d : Char) (other : isIdChar d = false) : (c == d) = false := by
      rw [beq_eq_false_iff_ne]
      rintro rfl
      rw [isIdChar_of_parse? h _ hc] at other
      cases other
    simp only [Html.escapeChar, ne '&' (by decide), ne '<' (by decide), ne '>' (by decide),
      ne '"' (by decide), ne '\'' (by decide), Bool.false_eq_true, if_false]
  rw [Html.escape, Html.escapeChars_eq_self plain, String.ofList_toList]

end BlockMarker

namespace Html

open Node Stage.Blocks

variable {n m : Node} {c : Container} {cs : List Node} {info : Record} {tight : Bool} {id : String}

/-- The first text is a part of the second. -/
def Within (part whole : String) : Prop := ∃ front back, whole = front ++ part ++ back

namespace Within

variable {s t u : String}

theorem refl (s : String) : Within s s := ⟨"", "", by simp⟩

theorem trans (h : Within s t) (h' : Within t u) : Within s u := by
  obtain ⟨front, back, rfl⟩ := h
  obtain ⟨front', back', rfl⟩ := h'
  exact ⟨front' ++ front, back ++ back', by simp only [String.append_assoc]⟩

theorem left (s t : String) : Within s (s ++ t) := ⟨"", t, by simp⟩

theorem right (s t : String) : Within s (t ++ s) := ⟨t, "", by simp⟩

theorem element (name attrs content : String) : Within content (Html.element name attrs content) :=
  ⟨"<" ++ name ++ attrs ++ ">", "</" ++ name ++ ">", by simp only [Html.element, String.append_assoc]⟩

theorem isInfix (h : Within s t) : s.toList <:+: t.toList := by
  obtain ⟨front, back, rfl⟩ := h
  exact ⟨front.toList, back.toList, by simp only [String.toList_append]⟩

end Within

theorem renderAll_within (member : n ∈ cs) {s : String} (ok : renderAll tight cs = .ok s) :
    ∃ shown, render tight n = .ok shown ∧ Within shown s := by
  induction cs generalizing s with
  | nil => cases member
  | cons k cs ih =>
      rw [renderAll] at ok
      obtain ⟨first, ofFirst, ok⟩ := bind_eq_ok.mp ok
      obtain ⟨later, ofLater, ok⟩ := bind_eq_ok.mp ok
      cases ok
      rcases List.mem_cons.mp member with rfl | among
      · exact ⟨first, ofFirst, .left _ _⟩
      · obtain ⟨shown, rendered, within⟩ := ih among ofLater
        exact ⟨shown, rendered, within.trans (.right _ _)⟩

/-- The markup of a container of blocks is made around the markup of its blocks. -/
theorem content_within (blocks : holdsBlocks c = true) {s : String}
    (ok : render tight (.branch c cs info) = .ok s) :
    ∃ inner content, renderAll inner cs = .ok content ∧ Within content s := by
  have line (name attrs front content : String) :
      Within content (element name attrs (front ++ content) ++ "\n") :=
    ((Within.right _ _).trans (.element _ _ _)).trans (.left _ _)
  cases c with
  | document => exact ⟨tight, s, ok, .refl s⟩
  | blockQuote =>
      rw [render] at ok
      obtain ⟨attrs, -, ok⟩ := bind_eq_ok.mp ok
      obtain ⟨content, ofContent, ok⟩ := bind_eq_ok.mp ok
      cases ok
      exact ⟨false, content, ofContent, line _ _ _ _⟩
  | list ordered start listTight =>
      rw [render] at ok
      obtain ⟨attrs, -, ok⟩ := bind_eq_ok.mp ok
      obtain ⟨content, ofContent, ok⟩ := bind_eq_ok.mp ok
      cases ok
      exact ⟨listTight, content, ofContent, line _ _ _ _⟩
  | listItem mark =>
      rw [render] at ok
      obtain ⟨attrs, -, ok⟩ := bind_eq_ok.mp ok
      obtain ⟨content, ofContent, ok⟩ := bind_eq_ok.mp ok
      cases ok
      exact ⟨tight, content, ofContent, line _ _ _ _⟩
  | _ => cases blocks

theorem render_within (h : Holds n m) {s : String} (ok : render tight n = .ok s) :
    ∃ inner shown, render inner m = .ok shown ∧ Within shown s := by
  induction h generalizing tight s with
  | self => exact ⟨tight, s, ok, .refl s⟩
  | child blocks member _ ih =>
      obtain ⟨inner, content, ofContent, within⟩ := content_within blocks ok
      obtain ⟨part, ofPart, among⟩ := renderAll_within member ofContent
      obtain ⟨innermost, shown, rendered, below⟩ := ih ofPart
      exact ⟨innermost, shown, rendered, (below.trans among).trans within⟩

/-- The kinds of blocks that are shown as an element with their attributes. -/
def addressable : List Kind := [.heading, .paragraph, .codeBlock, .blockQuote, .list, .table]

/-- The markup of such a block, from the attributes of its element and what stands in it. -/
def blockMarkup? (attrs content : String) : Node → Option String
  | .branch (.heading level) _ _ => some (element ("h" ++ level.text) attrs content ++ "\n")
  | .branch .paragraph _ _ => some (element "p" attrs content ++ "\n")
  | .branch .blockQuote _ info =>
    let name := match info.get? tagKey with
      | some v => v.text
      | none => "blockquote"
    some (element name attrs content ++ "\n")
  | .branch (.list ordered _ _) _ _ =>
    some (element (if ordered then "ol" else "ul") attrs content ++ "\n")
  | .leaf (.codeBlock _ _) _ => some ("<pre>" ++ element "code" attrs content ++ "</pre>\n")
  | .table _ _ _ _ => some (element "table" attrs content ++ "\n")
  | _ => none

/-- Raw markup on lines of its own. -/
def rawLines (content : String) : String :=
  if content.isEmpty || content.endsWith "\n" then content else content ++ "\n"

/-- The attribute that makes an element a target. -/
def idAttribute (id : String) : String := " id=\"" ++ id ++ "\""

theorem attributes_set_id {as : Record} (fresh : as.get? idKey = none) (plain : escape id = id) :
    attributes (as.set idKey (.str id)) = attributes as ++ idAttribute id := by
  have last : as.set idKey (.str id) = as ++ [(idKey, .str id)] := Entries.insert_of_none fresh
  have one : formatAttribute idKey (.str id) = " id=\"" ++ escape id ++ "\"" := rfl
  simp [attributes, last, one, plain, idAttribute, String.join]

theorem nodeAttributes_id {old base : Record} (has : HasAttrs info (old.set idKey (.str id)))
    (fresh : old.get? idKey = none) (plain : escape id = id) (other : base.get? idKey = none) :
    nodeAttributes base info = .ok (attributes (base.merge old) ++ idAttribute id) := by
  have merged : base.merge (old.set idKey (.str id)) = (base.merge old).set idKey (.str id) :=
    Record.merge_set_of_none fresh
  rw [nodeAttributes, has.attrsOf]
  change Except.ok (attributes (base.merge (old.set idKey (.str id)))) = _
  rw [merged, attributes_set_id (Record.get?_merge_none other fresh) plain]

theorem isEmpty_idAttribute (attrs id : String) : (attrs ++ idAttribute id).isEmpty = false := by
  rw [Bool.eq_false_iff]
  intro empty
  have none := congrArg String.toList (String.isEmpty_iff.mp empty)
  simp [idAttribute] at none

/-- A block with an id is an element with the id, if it is shown as an element at all. -/
theorem render_addressable {old : Record} (has : HasAttrs n.info (old.set idKey (.str id)))
    (fresh : old.get? idKey = none) (plain : escape id = id) (kind : n.kind ∈ addressable)
    {s : String} (ok : render tight n = .ok s) :
    ∃ attrs content, blockMarkup? (attrs ++ idAttribute id) content n = some s := by
  have shown {base : Record} (other : base.get? idKey = none) :
      nodeAttributes base n.info = .ok (attributes (base.merge old) ++ idAttribute id) :=
    nodeAttributes_id has fresh plain other
  cases n with
  | leaf l info =>
      cases l with
      | codeBlock content language =>
          simp only [render, renderLeaf] at ok
          obtain ⟨attrs, ofAttrs, ok⟩ := bind_eq_ok.mp ok
          cases ok
          have given {base : Record} (other : base.get? idKey = none)
              (same : nodeAttributes base info = .ok attrs) : ∃ attrs' content', blockMarkup?
                (attrs' ++ idAttribute id) content' (.leaf (.codeBlock content language) info) =
                  some ("<pre>" ++ element "code" attrs (escape content) ++ "</pre>\n") := by
            cases same.symm.trans (shown other)
            exact ⟨_, _, rfl⟩
          split at ofAttrs
          · split at ofAttrs
            · exact given rfl ofAttrs
            · exact given rfl ofAttrs
          · exact given rfl ofAttrs
      | _ => simp [addressable, Node.kind, Leaf.kind] at kind
  | table header rows al info =>
      cases header with
      | none =>
          rw [render] at ok
          obtain ⟨attrs, ofAttrs, ok⟩ := bind_eq_ok.mp ok
          obtain ⟨body, -, ok⟩ := bind_eq_ok.mp ok
          cases ok
          cases ofAttrs.symm.trans (shown rfl)
          exact ⟨_, _, rfl⟩
      | some header =>
          rw [render] at ok
          obtain ⟨attrs, ofAttrs, ok⟩ := bind_eq_ok.mp ok
          obtain ⟨head, -, ok⟩ := bind_eq_ok.mp ok
          obtain ⟨body, -, ok⟩ := bind_eq_ok.mp ok
          cases ok
          cases ofAttrs.symm.trans (shown rfl)
          exact ⟨_, _, rfl⟩
  | branch c cs info =>
      cases c with
      | heading level =>
          rw [render] at ok
          obtain ⟨content, -, ok⟩ := bind_eq_ok.mp ok
          obtain ⟨attrs, ofAttrs, ok⟩ := bind_eq_ok.mp ok
          cases ok
          cases ofAttrs.symm.trans (shown rfl)
          exact ⟨_, _, rfl⟩
      | paragraph =>
          rw [render] at ok
          obtain ⟨content, -, ok⟩ := bind_eq_ok.mp ok
          obtain ⟨attrs, ofAttrs, ok⟩ := bind_eq_ok.mp ok
          cases ofAttrs.symm.trans (shown rfl)
          rw [isEmpty_idAttribute, Bool.and_false] at ok
          cases ok
          exact ⟨_, _, rfl⟩
      | blockQuote =>
          rw [render] at ok
          obtain ⟨attrs, ofAttrs, ok⟩ := bind_eq_ok.mp ok
          obtain ⟨content, -, ok⟩ := bind_eq_ok.mp ok
          cases ok
          cases ofAttrs.symm.trans (shown rfl)
          exact ⟨_, _, rfl⟩
      | list ordered start listTight =>
          rw [render] at ok
          obtain ⟨attrs, ofAttrs, ok⟩ := bind_eq_ok.mp ok
          obtain ⟨content, -, ok⟩ := bind_eq_ok.mp ok
          have other : (if ordered && start != 1 then [(.str "start", .int start)] else [] :
              Record).get? idKey = none := by split <;> rfl
          cases ok
          cases ofAttrs.symm.trans (shown other)
          exact ⟨_, _, rfl⟩
      | _ => simp [addressable, Node.kind, Container.kind] at kind

end Html

namespace Pipeline

open Node Stage Stage.Blocks

theorem Usable.unmarked {n : Node} (h : Usable n) : Unmarked n where
  styled := by
    cases given : n.info.get? attrsKey with
    | none => exact ⟨[], .of_none given⟩
    | some v =>
        obtain ⟨as, rfl, -⟩ := h.attrs v given
        exact ⟨as, .inr given⟩
  id := by
    intro v has
    cases given : n.info.get? attrsKey with
    | none =>
        rw [idOf?_eq (.of_none given)] at has
        cases has
    | some w =>
        obtain ⟨as, rfl, -, text⟩ := h.attrs w given
        rw [idOf?_eq (.inr given)] at has
        exact text v has
  marker := h.marker

end Pipeline

namespace Stage.Blocks

open Html Node Pipeline

variable {n b p : Node} {id : String} {info : Record} {attrs content : String}

theorem blockMarkup?_withInfo (same : info.get? tagKey = n.info.get? tagKey) :
    blockMarkup? attrs content (n.withInfo info) = blockMarkup? attrs content n := by
  cases n with
  | leaf l own => cases l <;> rfl
  | table header rows al own => rfl
  | branch c cs own =>
      cases c with
      | blockQuote =>
          change info.get? tagKey = own.get? tagKey at same
          simp only [withInfo, blockMarkup?, same]
      | _ => rfl

theorem blockMarkup?_named (styled : Styled n) :
    blockMarkup? attrs content (named id n) = blockMarkup? attrs content n := by
  obtain ⟨as, has⟩ := styled
  rw [named_eq has]
  exact blockMarkup?_withInfo (Record.get?_set_of_ne (by decide))

theorem blockMarkup?_plain : blockMarkup? attrs content (plain n) = blockMarkup? attrs content n :=
  blockMarkup?_withInfo (Record.get?_erase_of_ne (by decide))

theorem blockMarkup?_mark (n : Node) :
    blockMarkup? attrs content (mark n) = blockMarkup? attrs content n := by
  cases n with
  | leaf l info => rfl
  | table header rows al info => cases header <;> rfl
  | branch c cs info =>
      cases c with
      | paragraph =>
          rw [mark, markBranch, readParagraph]
          split
          · rfl
          · split
            · rfl
            · obtain ⟨own, same⟩ := exists_withInfo_named _ (unmarked _ (markAll cs) info)
              rw [same]
              rfl
      | blockQuote => rw [mark_quotes (.inr rfl)]; rfl
      | document => rw [mark_quotes (.inl rfl)]; rfl
      | listItem item =>
          have other : Container.listItem item ≠ .paragraph := by
            intro same
            cases same
          rw [mark, markBranch_of_ne other]
          simp only [handsOn, if_true, closed]
          split
          · rfl
          · obtain ⟨own, same⟩ := exists_withInfo_named _ (.branch (.listItem item) _ info)
            rw [same]
            rfl
      | _ => rfl

/-- A block without an id has the id of the marker after it as its last attribute. -/
theorem hasAttrs_named_mark (h : Unmarked b) (nameless : idOf? b = none) (id : String) :
    ∃ old : Record, old.get? idKey = none ∧
      HasAttrs (named id (plain (mark b))).info (old.set idKey (.str id)) := by
  obtain ⟨old, has⟩ := h.styled
  have fresh : old.get? idKey = none := (idOf?_eq has).symm.trans nameless
  refine ⟨old, fresh, ?_⟩
  cases turned b with
  | same info => exact hasAttrs_named (hasAttrs_plain.mpr (info ▸ has))
  | lone marker info => exact hasAttrs_named (hasAttrs_plain.mpr ((hasAttrs_marked info).mpr has))
  | named m earlier _ info root =>
      -- the block had a marker of its own, and the later id replaces that one
      have first : HasAttrs (plain (mark b)).info (old.set idKey (.str earlier)) := by
        rw [root]
        exact hasAttrs_plain.mpr (hasAttrs_named (info ▸ has))
      have both : (old.set idKey (.str earlier)).set idKey (.str id) = old.set idKey (.str id) :=
        Entries.insert_insert_self old "id" (.str earlier) (.str id)
      exact both ▸ hasAttrs_named first

/-- On a document with usable nodes below it the stage gives the marked document, and that renders. -/
theorem run_usable (o : Options) {d : Node} (r : Run) (document : d.kind = .document)
    (usable : ∀ child ∈ d.children, All Usable child) :
    ∃ s html, (visitMarker.run o d).outcome r = (.ok (some (mark d)), s) ∧
      Html.render false (mark d) = .ok html ∧ Html.ofDocument (mark d) = .ok html := by
  have sound : SoundBelow d := ⟨document, fun child hc n hn => (usable child hc n hn).sound⟩
  have listed : blockReferences ∈ builtin := by simp [builtin]
  obtain ⟨cs, info, rfl, -⟩ := sound.eq_document
  have unmarked : All Unmarked (.branch .document cs []) :=
    all_branch.mpr ⟨(unnamed_of_bare rfl).unmarked, fun child hc n hn => (usable child hc n hn).unmarked⟩
  have ran : (visitMarker.run o (.branch .document cs info)).Yields r
      (fun k _ => k = some (mark (.branch .document cs info))) False := by
    have same : visitMarker.run o (.branch .document cs info) =
        Option.map (withInfo info) <$> visitMarker.run o (.branch .document cs []) :=
      run_document listed cs info
    rw [same]
    refine .map ((transform_runs o _ .keep false r unmarked).mono ?_)
    rintro _ s ⟨rfl, -⟩
    rw [mark_quotes (.inl rfl), mark_quotes (.inl rfl)]
    rfl
  obtain ⟨_, s, given, rfl⟩ := ran.exists_ok
  obtain ⟨m, same, sound⟩ := (run_soundBelow (o := o) (r := r) listed sound).ok _ s given
  cases same
  obtain ⟨html, rendered, shown⟩ := ofDocument_soundBelow sound
  exact ⟨s, html, given, rendered, shown⟩

/-- A single lone marker makes a target of the block before it. In every document and in every quote of
it, wherever that stands among quotes, lists and items, the marked document holds the block with the
id. If the block is a heading, a paragraph, a code block, a quote, a list or a table, the markup shows
an element for it whose last attribute is the id. Raw markup stands there as it is written. -/
theorem marked_block_shown {o : Options} {d b p : Node} {r : Run} {c : Container}
    {before after : List Node} {info : Record} {id : String} (document : d.kind = .document)
    (usable : ∀ child ∈ d.children, ∀ n ∈ child.nodes, Usable n)
    (place : Holds d (.branch c (before ++ b :: p :: after) info))
    (quotes : c = .document ∨ c = .blockQuote) (alone : loneId? p = some id)
    (single : ∀ k ∈ after.head?, loneId? k = none) (stays : before = [] ∨ loneId? b = none)
    (nameless : idOf? b = none) :
    ∃ m s html tight shown, (visitMarker.run o d).outcome r = (.ok (some m), s) ∧
      Html.ofDocument m = .ok html ∧ Holds m (named id (plain (mark b))) ∧
      render tight (named id (plain (mark b))) = .ok shown ∧ Within shown html ∧
      (b.kind ∈ addressable →
        ∃ attrs content, blockMarkup? (attrs ++ idAttribute id) content b = some shown) ∧
      ∀ content own, b = .leaf (.htmlBlock content) own → shown = rawLines content := by
  obtain ⟨s, html, given, rendered, whole⟩ := run_usable o r document usable
  have below : ∀ k ∈ d.children, All Unmarked k := fun k hk n hn => (usable k hk n hn).unmarked
  have blocks : ∀ n ∈ before ++ b :: p :: after, Unmarked n :=
    fun n hn => (place.all_children below n hn).self
  have unmarked : Unmarked b := blocks b (by simp)
  have holder : holdsBlocks c = true := by rcases quotes with rfl | rfl <;> rfl
  obtain ⟨info', held⟩ := holds_mark place below quotes
  have target : Holds (mark d) (named id (plain (mark b))) :=
    held.trans (.child holder (named_mem_handOn blocks alone single stays) (.self _))
  obtain ⟨tight, shown, ofBlock, within⟩ := render_within target rendered
  refine ⟨mark d, s, html, tight, shown, given, whole, target, ofBlock, within, fun kind => ?_, ?_⟩
  · obtain ⟨old, fresh, has⟩ := hasAttrs_named_mark unmarked nameless id
    obtain ⟨text, textInfo, own, marker, -, parsed, -, rfl⟩ := loneId?_eq_some.mp alone
    have same : (named marker.id (plain (mark b))).kind ∈ addressable := by
      rwa [kind_named, kind_plain, kind_mark]
    obtain ⟨attrs, content, markup⟩ :=
      render_addressable has fresh (BlockMarker.escape_id parsed) same ofBlock
    refine ⟨attrs, content, ?_⟩
    rwa [blockMarkup?_named (ready_mark unmarked).styled.plain, blockMarkup?_plain,
      blockMarkup?_mark] at markup
  · rintro content own rfl
    obtain ⟨own', same⟩ := exists_withInfo_apply (.rename id) (mark (.leaf (.htmlBlock content) own))
    have raw : named id (plain (mark (.leaf (.htmlBlock content) own))) =
        .leaf (.htmlBlock content) own' := same
    rw [raw] at ofBlock
    exact (Except.ok.inj ofBlock).symm

/-- A heading with a marker after it, in a quote in a tight list. -/
def aimedNote : Node :=
  .branch .document [.branch (.list false 1 true) [.branch (.listItem none) [.branch .blockQuote
    [.branch (.heading ⟨2, by decide, false⟩) [Node.ofText "Aim"] [],
      Node.paragraph [Node.ofText "^aim"], Node.paragraph [Node.ofText "more"]] []] []] []] []

theorem aimedNote_shown : ∃ m s html attrs content,
    (visitMarker.run Options.defaults aimedNote).outcome ⟨Context.new "n" none, []⟩ =
      (.ok (some m), s) ∧
    Html.ofDocument m = .ok html ∧
    Within (element "h2" (attrs ++ idAttribute "aim") content ++ "\n") html := by
  have place : Holds aimedNote (.branch .blockQuote
      ([] ++ .branch (.heading ⟨2, by decide, false⟩) [Node.ofText "Aim"] [] ::
        Node.paragraph [Node.ofText "^aim"] :: [Node.paragraph [Node.ofText "more"]]) []) :=
    .child rfl List.mem_cons_self (.child rfl List.mem_cons_self (.child rfl List.mem_cons_self (.self _)))
  have alone : loneId? (Node.paragraph [Node.ofText "^aim"]) = some "aim" := by decide
  obtain ⟨m, s, html, tight, shown, given, whole, -, -, within, addressed, -⟩ :=
    marked_block_shown (o := Options.defaults) (r := ⟨Context.new "n" none, []⟩) rfl (by decide) place
      (.inr rfl) alone (by decide) (.inl rfl) (by rfl)
  obtain ⟨attrs, content, markup⟩ := addressed (by decide)
  cases markup
  exact ⟨m, s, html, attrs, content, given, whole, within⟩

/-- A block of raw markup with a marker after it. -/
def rawNote : Node :=
  .branch .document [.leaf (.htmlBlock "<div>x</div>") [], Node.paragraph [Node.ofText "^a"]] []

theorem quote_not_mem_rawLines {content : String} (h : '"' ∉ content.toList) :
    '"' ∉ (rawLines content).toList := by
  unfold rawLines
  split
  · exact h
  · simpa using h

/-- The markup of such a document has no target for the id. -/
theorem rawNote_targetless :
    (∀ child ∈ rawNote.children, ∀ n ∈ child.nodes, Usable n) ∧
    loneId? (Node.paragraph [Node.ofText "^a"]) = some "a" ∧
    idOf? (.leaf (.htmlBlock "<div>x</div>") []) = none ∧
    ∃ m s html, (visitMarker.run Options.defaults rawNote).outcome ⟨Context.new "n" none, []⟩ =
        (.ok (some m), s) ∧
      Html.ofDocument m = .ok html ∧ ¬ Within (idAttribute "a") html := by
  have usable : ∀ child ∈ rawNote.children, ∀ n ∈ child.nodes, Usable n := by decide
  obtain ⟨s, html, given, -, whole⟩ :=
    run_usable Options.defaults ⟨Context.new "n" none, []⟩ (d := rawNote) rfl usable
  have shownAs : Html.ofDocument (mark rawNote) = .ok (rawLines "<div>x</div>" ++ "") :=
    (Html.ofDocument_eq _).trans (by rfl)
  have written : html = rawLines "<div>x</div>" ++ "" := Except.ok.inj (whole.symm.trans shownAs)
  refine ⟨usable, by decide, by rfl, mark rawNote, s, html, given, whole, fun target => ?_⟩
  have quote : '"' ∈ (idAttribute "a").toList := by simp [idAttribute]
  have shown : '"' ∈ (rawLines "<div>x</div>").toList := by
    simpa [written] using target.isInfix.subset quote
  exact quote_not_mem_rawLines (by decide) shown

end Stage.Blocks

end NoteMarkup
