import NoteMarkup.Proofs.WellFormed

/-! Processing without errors. Stages and the renderer read the information on a node as if it had a
certain shape. A document whose nodes have it passes every choice of built-in stages and renders. The
information on the document itself is carried along unread, so it can be anything. -/

namespace NoteMarkup

open Node Stage

variable {o : Options} {inLink : Bool} {cs : List Node} {info : Record} {n : Node} {r : Run}

namespace Stage

theorem visit_document {s : Stage} (hs : s ∈ builtin) (cs : List Node) (info : Record) :
    s.transformation.visit o inLink (.branch .document cs info) =
      Option.map (withInfo info) <$>
        s.transformation.visit o inLink (.branch .document cs []) := by
  simp only [builtin, List.mem_cons, List.not_mem_nil, or_false] at hs
  rcases hs with rfl | rfl | rfl | rfl | rfl | rfl | rfl | rfl | rfl | rfl | rfl | rfl
  case inr.inr.inr.inr.inr.inr.inr.inl =>
    -- the one stage that hands something on among the children of a document
    simp only [blockReferences, Blocks.visitMarker, map_bind, map_pure]
    rfl
  all_goals rfl

/-- A stage does the same to a document whatever information the document has. -/
theorem run_document {s : Stage} (hs : s ∈ builtin) (cs : List Node) (info : Record) :
    s.transformation.visit.run o (.branch .document cs info) =
      Option.map (withInfo info) <$> s.transformation.visit.run o (.branch .document cs []) := by
  simp only [Visit.run, transform, visit_document hs _ info, map_bind]

end Stage

namespace Pipeline

/-- A document that has only sound trees below it. -/
structure SoundBelow (n : Node) : Prop where
  document : n.kind = .document
  below : ∀ c ∈ n.children, SoundTree False False c

theorem SoundBelow.eq_document (h : SoundBelow n) :
    ∃ cs info, n = .branch .document cs info ∧ SoundTree False False (.branch .document cs []) := by
  obtain ⟨document, below⟩ := h
  cases n with
  | leaf l info => cases l <;> cases document
  | table header rows al info => cases document
  | branch c cs info =>
      cases c with
      | document => exact ⟨cs, info, rfl, all_branch.mpr ⟨.fresh rfl rfl rfl, below⟩⟩
      | _ => cases document

theorem run_soundBelow {s : Stage} (hs : s ∈ Stage.builtin) (h : SoundBelow n) :
    Visited (s.transformation.visit.run o n) r SoundBelow False := by
  obtain ⟨cs, info, rfl, sound⟩ := h.eq_document
  rw [run_document hs]
  refine .map ((Stage.builtin_run_sound hs sound).mono ?_)
  rintro _ s ⟨m, rfl, sound, place⟩
  refine ⟨m.withInfo info, rfl, ?_, ?_⟩
  · rw [kind_withInfo]
    exact place.document rfl
  · rw [children_withInfo]
    exact fun c hc => sound.child hc

theorem ofDocument_soundBelow (h : SoundBelow n) :
    ∃ html, Html.render false n = .ok html ∧ Html.ofDocument n = .ok html := by
  obtain ⟨cs, info, rfl, sound⟩ := h.eq_document
  obtain ⟨html, rendered, -⟩ := Html.render_sound sound _ (self_mem_nodes _) false
  -- a document renders without a look at its information
  change Html.render false (.branch .document cs info) = .ok html at rendered
  exact ⟨html, rendered, (Html.ofDocument_eq _).trans rendered⟩

/-- The shape of information that stages and the renderer rely on. Render attributes, if there are
any, are a map; its classes are a list and its id is a text. No id waits to be handed on, and a table
holds rows of cells. -/
structure Usable (n : Node) : Prop where
  attrs : ∀ v, n.info.get? attrsKey = some v → ∃ as : Record, v = .map as ∧
    (∀ c, as.get? (.str "class") = some c → ∃ items, c = .list items) ∧
    (∀ id, as.get? (.str "id") = some id → ∃ s, id = .str s)
  marker : n.info.get? Blocks.markerKey = none
  tabular : n.isTabular = true

def isText : Value → Bool
  | .str _ => true
  | _ => false

theorem isText_iff {v : Value} : isText v = true ↔ ∃ s, v = .str s := by
  cases v <;> simp [isText]

def areUsableAttrs : Value → Bool
  | .map as => (Record.get? as (.str "class")).all isList && (Record.get? as (.str "id")).all isText
  | _ => false

theorem areUsableAttrs_iff {v : Value} :
    areUsableAttrs v = true ↔ ∃ as : Record, v = .map as ∧
      (∀ c, as.get? (.str "class") = some c → ∃ items, c = .list items) ∧
      (∀ id, as.get? (.str "id") = some id → ∃ s, id = .str s) := by
  cases v <;> simp [areUsableAttrs, isList_iff, isText_iff, Option.all_eq_true]

instance (n : Node) : Decidable (Usable n) :=
  decidable_of_iff ((n.info.get? attrsKey).all areUsableAttrs = true ∧
      (n.info.get? Blocks.markerKey).isNone = true ∧ n.isTabular = true) (by
    simp only [Option.all_eq_true, areUsableAttrs_iff, Option.isNone_iff_eq_none]
    exact ⟨fun ⟨attrs, marker, tabular⟩ => ⟨attrs, marker, tabular⟩,
      fun h => ⟨h.attrs, h.marker, h.tabular⟩⟩)

theorem Usable.sound (h : Usable n) : Sound False False n where
  attrs := by
    cases given : n.info.get? attrsKey with
    | none => exact ⟨[], .of_none given, .nil⟩
    | some v =>
        obtain ⟨as, rfl, classes, id⟩ := h.attrs v given
        refine ⟨as, .inr given, nofun, nofun, classes, ?_⟩
        intro v hv
        obtain ⟨s, rfl⟩ := id v hv
        rfl
  tag := nofun
  marker := by
    left
    rw [h.marker]
    rfl
  raw := nofun
  tabular := h.tabular

end Pipeline

end NoteMarkup
