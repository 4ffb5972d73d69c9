import NoteMarkup.Proofs.MarkSyntax
import NoteMarkup.Proofs.Run
import NoteMarkup.Stage.RawMarkup

/-! The passes over raw markup as functions of the text. A pass reads the note's context, writes to
the log and may record tags, but the text that it gives depends on the text, the options, the slug of
the note and the slugs that are known, and on nothing that an earlier reference or tag has changed. -/

namespace NoteMarkup

theorem StageM.outcome_mapM {α β : Type} {f : α → StageM β} {text : α → β} {Kept : Run → Prop}
    {as : List α}
    (each : ∀ a ∈ as, ∀ r, Kept r → ∃ s, (f a).outcome r = (.ok (text a), s) ∧ Kept s)
    {r : Run} (kept : Kept r) : ∃ s, (as.mapM f).outcome r = (.ok (as.map text), s) ∧ Kept s := by
  induction as generalizing r with
  | nil => exact ⟨r, rfl, kept⟩
  | cons a as ih =>
      obtain ⟨first, later⟩ := List.forall_mem_cons.mp each
      obtain ⟨s, hs, keptS⟩ := first r kept
      obtain ⟨t, ht, keptT⟩ := ih later keptS
      refine ⟨t, ?_, keptT⟩
      rw [List.mapM_cons, outcome_bind_ok hs, outcome_bind_ok ht]
      rfl

theorem StageM.outcome_mapM_singleton {α β : Type} {f : α → StageM β} {a : α} {b : β} {r s : Run}
    (h : (f a).outcome r = (.ok b, s)) : ([a].mapM f).outcome r = (.ok [b], s) := by
  rw [List.mapM_cons, outcome_bind_ok h]
  rfl

namespace Stage

open StageM

variable {o : Options} {r : Run}

theorem Links.resolveM_outcome (target : String) (anchor label : Option String) (r : Run) :
    ∃ s, (Links.resolveM target anchor label o).outcome r =
        (.ok (Links.resolve target anchor label r.context o), s) ∧ s.context = r.context := by
  unfold Links.resolveM
  rw [outcome_bind_ok (outcome_context r)]
  dsimp only
  split
  · rw [outcome_bind_ok (outcome_debug _ _ _)]
    exact ⟨_, rfl, rfl⟩
  · exact ⟨_, rfl, rfl⟩

namespace RawMarkup

/-- One step of the pass over references. -/
def replaceReference (o : Options) : Reference.Piece → StageM (List Char)
  | .gap cs => pure cs
  | .reference r source =>
    if r.embedded then pure source
    else do return (← Links.resolveM r.target r.anchor r.label o).toHtml.toList

/-- One step of the pass over tags. -/
def replaceTag : TagText.Piece → StageM (List Char)
  | .gap c => pure [c]
  | .tag value =>
    if TagText.isNumeric (String.ofList value) then pure ('#' :: value)
    else do
      let slug ← Tags.register (String.ofList value)
      return (Tags.linkMarkup (← StageM.context) slug).toList

theorem resolveLinks_eq (o : Options) (s : List Char) :
    resolveLinks o s = do return (← (Reference.pieces s).mapM (replaceReference o)).flatten := rfl

theorem resolveTags_eq (s : List Char) :
    resolveTags s = do return (← (TagText.pieces true s).mapM replaceTag).flatten := rfl

theorem resolveLinks_single {s t : List Char} {p : Reference.Piece} {u : Run}
    (whole : Reference.pieces s = [p]) (h : (replaceReference o p).outcome r = (.ok t, u)) :
    (resolveLinks o s).outcome r = (.ok t, u) := by
  rw [resolveLinks_eq, whole, outcome_bind_ok (outcome_mapM_singleton h), outcome_pure]
  simp

theorem resolveTags_single {s t : List Char} {p : TagText.Piece} {u : Run}
    (whole : TagText.pieces true s = [p]) (h : (replaceTag p).outcome r = (.ok t, u)) :
    (resolveTags s).outcome r = (.ok t, u) := by
  rw [resolveTags_eq, whole, outcome_bind_ok (outcome_mapM_singleton h), outcome_pure]
  simp

/-- What takes the place of a piece when references are replaced. -/
def linkText (o : Options) (c : Context) : Reference.Piece → List Char
  | .gap cs => cs
  | .reference r source =>
    if r.embedded then source
    else (Links.resolve r.target r.anchor r.label c o).toHtml.toList

/-- What takes the place of a piece when highlights are replaced. -/
def highlightText : Highlight.Piece → List Char
  | .gap c => [c]
  | .highlight content => (Highlight.markup (String.ofList content)).toList

/-- What takes the place of a piece when tags are replaced. -/
def tagText (c : Context) : TagText.Piece → List Char
  | .gap ch => [ch]
  | .tag value =>
    if TagText.isNumeric (String.ofList value) then '#' :: value
    else (Tags.linkMarkup c (Slug.ofTag (String.ofList value))).toList

/-- A text with its references replaced. -/
def linked (o : Options) (c : Context) (s : List Char) : List Char :=
  (Reference.pieces s).flatMap (linkText o c)

/-- A text with its tags replaced. -/
def tagged (c : Context) (s : List Char) : List Char :=
  (TagText.pieces true s).flatMap (tagText c)

theorem resolveHighlights_eq (s : List Char) :
    resolveHighlights s = (Highlight.pieces s).flatMap highlightText := rfl

theorem replaceReference_outcome (p : Reference.Piece) (r : Run) :
    ∃ t, (replaceReference o p).outcome r = (.ok (linkText o r.context p), t) ∧
      t.context = r.context := by
  cases p with
  | gap cs => exact ⟨r, rfl, rfl⟩
  | reference ref source =>
      unfold replaceReference linkText
      dsimp only
      split
      · exact ⟨r, rfl, rfl⟩
      · obtain ⟨t, ht, kept⟩ := Links.resolveM_outcome (o := o) ref.target ref.anchor ref.label r
        exact ⟨t, by rw [outcome_bind_ok ht]; rfl, kept⟩

theorem register_outcome (value : String) (r : Run) :
    ∃ t, (Tags.register value).outcome r = (.ok (Slug.ofTag value), t) ∧
      t.context = r.context.addTag (Slug.ofTag value) := by
  unfold Tags.register
  dsimp only
  rw [outcome_bind_ok (outcome_context r)]
  split
  · next fresh =>
      rw [outcome_bind_ok (outcome_modifyContext _ _), outcome_bind_ok (outcome_debug _ _ _)]
      exact ⟨_, rfl, rfl⟩
  · next known =>
      refine ⟨r, rfl, ?_⟩
      rw [Context.addTag, if_pos (by simpa using known)]

theorem slug_addTag (c : Context) (slug : String) : (c.addTag slug).slug = c.slug := by
  unfold Context.addTag
  split <;> rfl

theorem linkMarkup_congr {c d : Context} (h : c.slug = d.slug) (slug : String) :
    Tags.linkMarkup c slug = Tags.linkMarkup d slug := by
  simp only [Tags.linkMarkup, Context.tagUrl, Context.baseUrl, h]

theorem replaceTag_outcome {c : Context} (p : TagText.Piece) {r : Run}
    (h : r.context.slug = c.slug) :
    ∃ t, (replaceTag p).outcome r = (.ok (tagText c p), t) ∧ t.context.slug = c.slug := by
  cases p with
  | gap ch => exact ⟨r, rfl, h⟩
  | tag value =>
      unfold replaceTag tagText
      dsimp only
      split
      · exact ⟨r, rfl, h⟩
      · obtain ⟨t, ht, recorded⟩ := register_outcome (String.ofList value) r
        have kept : t.context.slug = c.slug := by rw [recorded, slug_addTag, h]
        refine ⟨t, ?_, kept⟩
        rw [outcome_bind_ok ht, outcome_bind_ok (outcome_context t), linkMarkup_congr kept]
        rfl

theorem resolveLinks_outcome (o : Options) (s : List Char) (r : Run) :
    ∃ t, (resolveLinks o s).outcome r = (.ok (linked o r.context s), t) ∧
      t.context = r.context := by
  have each : ∀ p ∈ Reference.pieces s, ∀ t : Run, t.context = r.context →
      ∃ u, (replaceReference o p).outcome t = (.ok (linkText o r.context p), u) ∧
        u.context = r.context := by
    intro p _ t same
    rw [← same]
    exact replaceReference_outcome p t
  obtain ⟨t, ht, kept⟩ := outcome_mapM each rfl
  rw [resolveLinks_eq, outcome_bind_ok ht]
  exact ⟨t, rfl, kept⟩

theorem resolveTags_outcome (s : List Char) (r : Run) :
    ∃ t, (resolveTags s).outcome r = (.ok (tagged r.context s), t) ∧
      t.context.slug = r.context.slug := by
  have each : ∀ p ∈ TagText.pieces true s, ∀ t : Run, t.context.slug = r.context.slug →
      ∃ u, (replaceTag p).outcome t = (.ok (tagText r.context p), u) ∧
        u.context.slug = r.context.slug :=
    fun p _ _ same => replaceTag_outcome p same
  obtain ⟨t, ht, kept⟩ := outcome_mapM each rfl
  rw [resolveTags_eq, outcome_bind_ok ht]
  exact ⟨t, rfl, kept⟩

/-- A text with its highlights replaced, if the options ask for it. -/
def highlighted (o : Options) (s : List Char) : List Char :=
  if o.enabled .highlight then resolveHighlights s else s

/-- All passes that the options ask for, one after the other. -/
def passes (o : Options) (c : Context) (s : List Char) : List Char :=
  let s := highlighted o (if o.enabled .wikilinks then linked o c s else s)
  if o.enabled .parseTags then tagged c s else s

/-- The passes that follow the one over references. -/
def resolveMarks (o : Options) (s : List Char) : StageM (List Char) :=
  if o.enabled .parseTags then resolveTags (highlighted o s) else pure (highlighted o s)

theorem resolve_eq (o : Options) (html : String) :
    resolve o html =
      (if o.enabled .wikilinks then resolveLinks o html.toList else pure html.toList) >>= fun s =>
        resolveMarks o s >>= fun s => pure (String.ofList s) := by
  unfold resolve resolveMarks highlighted
  cases o.enabled .wikilinks <;> cases o.enabled .highlight <;> cases o.enabled .parseTags <;>
    rfl

/-- Raw markup always gets a text, and the text is that of the passes. -/
theorem resolve_outcome (o : Options) (html : String) (r : Run) :
    ∃ t, (resolve o html).outcome r =
      (.ok (String.ofList (passes o r.context html.toList)), t) := by
  obtain ⟨t, links, kept⟩ : ∃ t,
      (if o.enabled .wikilinks then resolveLinks o html.toList else pure html.toList).outcome r =
        (.ok (if o.enabled .wikilinks then linked o r.context html.toList else html.toList), t) ∧
      t.context = r.context := by
    split
    · exact resolveLinks_outcome o html.toList r
    · exact ⟨r, rfl, rfl⟩
  have marks (s : List Char) : ∃ u, (resolveMarks o s).outcome t =
      (.ok (if o.enabled .parseTags then tagged r.context (highlighted o s)
        else highlighted o s), u) := by
    unfold resolveMarks
    split
    · obtain ⟨u, hu, -⟩ := resolveTags_outcome (highlighted o s) t
      exact ⟨u, by rw [hu, kept]⟩
    · exact ⟨t, rfl⟩
  obtain ⟨u, hu⟩ := marks _
  exact ⟨u, by rw [resolve_eq, outcome_bind_ok links, outcome_bind_ok hu]; rfl⟩

end RawMarkup

end Stage

end NoteMarkup
