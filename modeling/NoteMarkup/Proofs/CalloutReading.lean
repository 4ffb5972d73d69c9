import NoteMarkup.Proofs.CalloutBlocks
import NoteMarkup.Proofs.Lines
import NoteMarkup.Proofs.RenderedText

/-! The order in which a callout shows the text of its opening paragraph. The directive stands in the
first line of a text, and the lines of this text after it make the body. The inline nodes after the text
all go to the title, also where a line break stands before them. -/

namespace NoteMarkup.Stage.Callouts

open Node

variable {d : Callout.Directive} {line remaining title : String} {siblings later : List Node}

/-- What a title takes from the directive line: the title there, and the kind if there is nothing else
to show. A blank parts it from inline nodes. -/
def lineNodes (d : Callout.Directive) (siblings : List Node) : List Node :=
  if siblings.isEmpty then titleNodes d []
  else if d.title.isEmpty then [] else [Node.ofText (d.title ++ " ")]

theorem titleNodes_eq (d : Callout.Directive) (siblings : List Node) :
    titleNodes d siblings = lineNodes d siblings ++ siblings := by
  unfold lineNodes
  cases siblings with
  | nil => exact (List.append_nil _).symm
  | cons n ns =>
      unfold titleNodes
      cases d.title.isEmpty <;> rfl

/-- The inline nodes of the body paragraph among the children of a callout. -/
def bodyNodes : List Node → List Node
  | _ :: .branch .paragraph content _ :: _ => content
  | _ => []

/-- The children of a callout show the text of its opening paragraph in order: the title block shows
what stands on the directive line and nothing else, and the body paragraph the text after the line
break and the inline nodes that follow it. -/
structure ReadInOrder (d : Callout.Directive) (remaining : String) (siblings children : List Node) :
    Prop where
  title : ∃ line, Html.ofInline (lineNodes d siblings) = .ok line ∧
    children.head? = some (Node.generatedBlock
      (Callout.titleMarkup ("<p>" ++ line ++ "</p>") d.collapsible))
  body : Html.ofInline (bodyNodes children) = Html.ofInline (Node.ofText remaining :: siblings)

theorem bodyNodes_body (o : Opening) (title : String) :
    bodyNodes (body o title) = if o.remaining.isEmpty then [] else [Node.ofText o.remaining] := by
  unfold body
  split
  · split <;> rfl
  · rfl

theorem ofInline_bodyNodes (o : Opening) (title : String) :
    Html.ofInline (bodyNodes (body o title)) = .ok (Html.escape o.remaining) := by
  rw [bodyNodes_body]
  split
  · next empty =>
      rw [String.isEmpty_iff.mp empty, Html.ofInline_eq]
      rfl
  · exact Html.ofInline_text o.remaining

/-- Around a rendered title the order is kept exactly if the inline nodes show nothing. -/
theorem readInOrder_body_iff
    (rendered : Html.ofInline (titleNodes d siblings) = .ok title) :
    ReadInOrder d remaining siblings (body ⟨d, remaining, siblings, later⟩ title) ↔
      Html.ofInline siblings = .ok "" := by
  rw [titleNodes_eq, Html.ofInline_append_eq_ok] at rendered
  obtain ⟨front, shown, ofLine, ofSiblings, rfl⟩ := rendered
  have follows : Html.ofInline (Node.ofText remaining :: siblings) =
      .ok (Html.escape remaining ++ shown) := by
    rw [← List.singleton_append, Html.ofInline_append_eq_ok]
    exact ⟨_, _, Html.ofInline_text remaining, ofSiblings, rfl⟩
  constructor
  · intro h
    have body := h.body
    rw [ofInline_bodyNodes, follows] at body
    have chars := congrArg String.toList (Except.ok.inj body)
    rw [String.toList_append, List.self_eq_append_right] at chars
    rw [ofSiblings, String.toList_eq_nil_iff.mp chars]
  · intro nothing
    obtain rfl : shown = "" := Except.ok.inj (ofSiblings.symm.trans nothing)
    refine ⟨⟨front, ofLine, ?_⟩, ?_⟩
    · rw [String.append_empty]
      rfl
    · rw [ofInline_bodyNodes, follows, String.append_empty]

theorem splitLine_append_lineFeed (oneLine : '\n' ∉ line.toList) :
    splitLine (line ++ "\n" ++ remaining) = (line, remaining) := by
  have chars : (line ++ "\n" ++ remaining).toList = line.toList ++ '\n' :: remaining.toList := by simp
  unfold splitLine
  rw [chars, Text.cutAt_append oneLine]
  simp [Text.cutAt]

/-- A visit to a quote that opens a callout puts the parts of the callout in the place of its blocks. -/
theorem visit_opened {o : Options} {inLink : Bool} {r s : Run} {k : Option Node} {cs : List Node}
    {info : Record} {opening : Opening} (unkeyed : info.has calloutKey = false)
    (opened : opening? cs = some opening)
    (done : (visit o inLink (.branch .blockQuote cs info)).outcome r = (.ok k, s)) :
    ∃ m title, k = some m ∧
      Html.ofInline (titleNodes opening.directive opening.siblings) = .ok title ∧
      m.children = body opening title := by
  have visited : Visited (visit o inLink (.branch .blockQuote cs info)) r
      (Rewrites (.branch .blockQuote cs info)) True :=
    visit_yields (fun _ _ _ _ _ _ => trivial) fun _ => trivial
  obtain ⟨m, rfl, rewritten⟩ := visited.ok _ _ done
  cases rewritten with
  | keep closed =>
      rw [opens_of_opening unkeyed opened] at closed
      cases closed
  | @rebuild _ _ again title as _ openedAgain rendered _ =>
      obtain rfl : opening = again := Option.some.inj (opened.symm.trans openedAgain)
      exact ⟨_, title, rfl, rendered, rfl⟩

/-- A run leaves a paragraph of inline nodes alone. -/
theorem transform_inlineParagraph {p : Node} (inline : Inline p) (kind : p.kind = .paragraph)
    (o : Options) (inLink : Bool) (r : Run) :
    (p.transform (visit o) inLink).outcome r = (.ok (some p), r) :=
  transform_fixed (fun inLink _ closed => visit_of_not_opens closed inLink r) p inLink fun k hk =>
    not_opens_of_kind (inline.noQuote kind k hk)

/-- The opening paragraph of a callout with a line break in its first text. -/
def openingParagraph (line remaining : String) (siblings : List Node) (textInfo firstInfo : Record) :
    Node :=
  .branch .paragraph (.leaf (.text (line ++ "\n" ++ remaining)) textInfo :: siblings) firstInfo

theorem opening?_openingParagraph (oneLine : '\n' ∉ line.toList)
    (directive : Callout.parse? line = some d) (textInfo firstInfo : Record) :
    opening? (openingParagraph line remaining siblings textInfo firstInfo :: later) =
      some ⟨d, remaining, siblings, later⟩ := by
  rw [openingParagraph, opening?, splitLine_append_lineFeed oneLine]
  dsimp only
  rw [directive]
  rfl

/-- A run puts the parts of a callout in the place of the opening paragraph. -/
theorem transform_openingParagraph {o : Options} {inLink : Bool} {r s : Run}
    {textInfo firstInfo info : Record} {rest : List Node} {k : Option Node}
    (oneLine : '\n' ∉ line.toList) (directive : Callout.parse? line = some d)
    (unkeyed : info.has calloutKey = false)
    (inline : Inline (openingParagraph line remaining siblings textInfo firstInfo))
    (done : (Node.transform (visit o) inLink (.branch .blockQuote
      (openingParagraph line remaining siblings textInfo firstInfo :: rest) info)).outcome r =
        (.ok k, s)) :
    ∃ m later t title, k = some m ∧
      (transformAll (visit o) inLink rest).outcome r = (.ok later, t) ∧
      Html.ofInline (titleNodes d siblings) = .ok title ∧
      m.children = body ⟨d, remaining, siblings, later⟩ title := by
  have kept := transform_inlineParagraph inline rfl o inLink r
  have noLink : (inLink || Container.blockQuote.isLink) = inLink := Bool.or_false inLink
  rw [transform, noLink] at done
  -- the paragraph is kept, so a fault among the later blocks would be the fault of the run
  rcases ofRest : (transformAll (visit o) inLink rest).outcome r with ⟨e | later, t⟩
  · have stops : (transformAll (visit o) inLink
        (openingParagraph line remaining siblings textInfo firstInfo :: rest)).outcome r =
          (.error e, t) := by
      rw [transformAll, StageM.outcome_bind_ok kept, StageM.outcome_bind_error ofRest]
    rw [StageM.outcome_bind_error stops] at done
    cases done
  · have blocks : (transformAll (visit o) inLink
        (openingParagraph line remaining siblings textInfo firstInfo :: rest)).outcome r =
          (.ok (openingParagraph line remaining siblings textInfo firstInfo :: later), t) := by
      rw [transformAll, StageM.outcome_bind_ok kept, StageM.outcome_bind_ok ofRest]
      rfl
    rw [StageM.outcome_bind_ok blocks] at done
    obtain ⟨m, title, rfl, rendered, children⟩ := visit_opened unkeyed
      (opening?_openingParagraph oneLine directive textInfo firstInfo) done
    exact ⟨m, later, t, title, rfl, rfl, rendered, children⟩

/-- What a run makes of a quote whose opening paragraph holds a directive line, a line break, the rest
of the text, and inline nodes. The inline nodes go to the title after what stands on the directive
line, the rest of the text makes the body, and the blocks after the paragraph follow. So the text is
shown in order exactly if the inline nodes show nothing. -/
theorem order_kept_iff (o : Options) (inLink : Bool) (r s : Run) {textInfo firstInfo info : Record}
    {rest : List Node} {k : Option Node} (oneLine : '\n' ∉ line.toList)
    (directive : Callout.parse? line = some d) (unkeyed : info.has calloutKey = false)
    (inline : Inline (openingParagraph line remaining siblings textInfo firstInfo))
    (done : (Node.transform (visit o) inLink (.branch .blockQuote
      (openingParagraph line remaining siblings textInfo firstInfo :: rest) info)).outcome r =
        (.ok k, s)) :
    ∃ m later t front shown, k = some m ∧
      (transformAll (visit o) inLink rest).outcome r = (.ok later, t) ∧
      Html.ofInline (lineNodes d siblings) = .ok front ∧ Html.ofInline siblings = .ok shown ∧
      m.children = body ⟨d, remaining, siblings, later⟩ (front ++ shown) ∧
      (ReadInOrder d remaining siblings m.children ↔ shown = "") := by
  obtain ⟨m, later, t, title, same, ofRest, rendered, children⟩ :=
    transform_openingParagraph oneLine directive unkeyed inline done
  have order : ReadInOrder d remaining siblings (body ⟨d, remaining, siblings, later⟩ title) ↔ _ :=
    readInOrder_body_iff rendered
  rw [titleNodes_eq, Html.ofInline_append_eq_ok] at rendered
  obtain ⟨front, shown, ofLine, ofSiblings, rfl⟩ := rendered
  refine ⟨m, later, t, front, shown, same, ofRest, ofLine, ofSiblings, children, ?_⟩
  rw [children, order, ofSiblings]
  exact ⟨Except.ok.inj, congrArg _⟩

/-- The directive of `[!note] A`. -/
def noteDirective : Callout.Directive := ⟨"note", "note", none, .fixed, "A"⟩

theorem parse?_noteDirective : Callout.parse? "[!note] A" = some noteDirective := by decide +kernel

/-- A callout with a second line that ends with the given nodes. -/
def twoLines (siblings : List Node) : Node :=
  .branch .blockQuote [openingParagraph "[!note] A" "B " siblings [] []] []

theorem twoLines_in_order :
    ∃ m s, (Node.transform (visit Options.defaults) false (twoLines [])).outcome
        ⟨Context.new "n" none, []⟩ = (.ok (some m), s) ∧
      ReadInOrder noteDirective "B " [] m.children := by
  have done : ((Node.transform (visit Options.defaults) false (twoLines [])).outcome
      ⟨Context.new "n" none, []⟩).1.isOk = true := by decide +kernel
  rcases outcome : (Node.transform (visit Options.defaults) false (twoLines [])).outcome
    ⟨Context.new "n" none, []⟩ with ⟨e | k, s⟩
  · rw [outcome] at done
    cases done
  · obtain ⟨m, later, t, front, shown, rfl, -, -, nothing, -, order⟩ :=
      order_kept_iff Options.defaults false _ s (by decide) parse?_noteDirective rfl
        (by unfold Inline; decide) outcome
    refine ⟨m, s, rfl, order.mpr ?_⟩
    rw [Html.ofInline_eq] at nothing
    exact (Except.ok.inj nothing).symm

/-- Bold text at the end of the second line is shown in the title. -/
theorem boldLine_out_of_order :
    ∃ m s, (Node.transform (visit Options.defaults) false
        (twoLines [.branch .strong [Node.ofText "C"] []])).outcome ⟨Context.new "n" none, []⟩ =
        (.ok (some m), s) ∧
      ¬ ReadInOrder noteDirective "B " [.branch .strong [Node.ofText "C"] []] m.children := by
  have done : ((Node.transform (visit Options.defaults) false
      (twoLines [.branch .strong [Node.ofText "C"] []])).outcome
        ⟨Context.new "n" none, []⟩).1.isOk = true := by decide +kernel
  rcases outcome : (Node.transform (visit Options.defaults) false
      (twoLines [.branch .strong [Node.ofText "C"] []])).outcome ⟨Context.new "n" none, []⟩ with
    ⟨e | k, s⟩
  · rw [outcome] at done
    cases done
  · obtain ⟨m, later, t, title, rfl, -, rendered, children⟩ :=
      transform_openingParagraph (by decide) parse?_noteDirective rfl (by unfold Inline; decide) outcome
    refine ⟨m, s, rfl, fun order => ?_⟩
    rw [children, readInOrder_body_iff rendered] at order
    have shows : (Html.ofInline [.branch .strong [Node.ofText "C"] []]).toOption.map String.isEmpty =
        some false := by decide +kernel
    rw [order] at shows
    cases shows

end NoteMarkup.Stage.Callouts
