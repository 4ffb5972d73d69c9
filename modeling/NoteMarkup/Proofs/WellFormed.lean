import NoteMarkup.Proofs.PipelineRun
import NoteMarkup.Proofs.Soundness

/-! The markup of a document that the pipeline gives is well formed, whatever texts the document is
made of. Its source holds no raw markup and sets no attributes and no element names of its own. -/

namespace NoteMarkup.Pipeline

open Html Node Stage

/-- Nothing in the document is written as it stands: no raw markup, no attributes, no element names;
and tables hold rows of cells. -/
structure Closed (n : Node) : Prop where
  notBlock : n.kind ≠ .htmlBlock
  notInline : n.kind ≠ .htmlInline
  noAttrs : n.info.get? attrsKey = none
  noTag : n.info.get? tagKey = none
  tabular : n.isTabular = true

instance (n : Node) : Decidable (Closed n) :=
  decidable_of_iff (n.kind ≠ .htmlBlock ∧ n.kind ≠ .htmlInline ∧
      (n.info.get? attrsKey).isNone = true ∧ (n.info.get? tagKey).isNone = true ∧
      n.isTabular = true)
    ⟨fun ⟨block, inline, attrs, tag, tabular⟩ =>
        ⟨block, inline, Option.isNone_iff_eq_none.mp attrs, Option.isNone_iff_eq_none.mp tag, tabular⟩,
      fun h => ⟨h.notBlock, h.notInline, Option.isNone_iff_eq_none.mpr h.noAttrs,
        Option.isNone_iff_eq_none.mpr h.noTag, h.tabular⟩⟩

theorem Closed.sound {n : Node} {excused : Prop} (h : Closed n)
    (marker : ((n.info.get? Blocks.markerKey).getD .null).isKey = true ∨ excused) :
    Sound True excused n where
  attrs := ⟨[], .of_none h.noAttrs, .nil⟩
  tag _ := .inl h.noTag
  marker := marker
  raw _ content hc := by
    cases n with
    | leaf l info =>
        cases l with
        | htmlBlock => exact (h.notBlock rfl).elim
        | htmlInline => exact (h.notInline rfl).elim
        | _ => cases hc
    | _ => cases hc
  tabular := h.tabular

/-- A sound document renders as well-formed markup. -/
theorem render_wellFormed {n : Node} {excused : Prop} (h : SoundTree True excused n)
    (log : Log.Records) :
    ∃ html, (Pipeline.render n).run log = (.ok html, log) ∧ WellFormed html := by
  obtain ⟨html, rendered, fragment⟩ := render_sound h n n.self_mem_nodes false
  refine ⟨html, ?_, (fragment trivial).wellFormed⟩
  have document : ofDocument n = .ok html := (ofDocument_eq n).trans rendered
  unfold Pipeline.render
  rw [document]
  rfl

variable {o : Options} {n m : Node} {c c' : Context} {log log' : Log.Records}

theorem transform_sound (h : SoundTree True True n)
    (ok : (transform Registry.builtin o n c).run log = ((.ok m, c'), log')) :
    SoundTree True True m := by
  have ends := transform_ends (o := o) (fun _ n => SoundTree True True n) True Registry.builtin
    (fun s hs rest n r sound => ?_) h c log
  · exact (ends.1 m c' log' ok).1
  · refine (Stage.builtin_run_sound (mem_enabledStages_builtin.mp hs).1 sound).mono ?_
    rintro _ _ ⟨m, rfl, sound, -⟩
    refine ⟨?_, .inl trivial⟩
    rintro _ ⟨⟩
    exact sound

/-- A single built-in stage gives a tree for every sound one. -/
theorem stage_ok {s : Stage} (hs : s ∈ Stage.builtin) (h : SoundTree True False n) (r : Run) :
    ∃ m t, (s.transformation.visit.run o n).outcome r = (.ok (some m), t) := by
  obtain ⟨_, t, given, m, rfl, -⟩ := (Stage.builtin_run_sound (o := o) (r := r) hs h).exists_ok
  exact ⟨m, t, given⟩

/-- On a sound document the pipeline stops only at an id that cannot be a key. -/
theorem transform_ok (h : SoundTree True False n) (document : n.kind = .document) :
    ∃ m c' log', (transform Registry.builtin o n c).run log = ((.ok m, c'), log') := by
  have ends := transform_ends (o := o) (fun _ n => SoundTree True False n ∧ n.kind = .document) False
    Registry.builtin (fun s hs rest n r ⟨sound, document⟩ => ?_) ⟨h, document⟩ c log
  · rcases run : (transform Registry.builtin o n c).run log with ⟨⟨e | m, c'⟩, log'⟩
    · exact (ends.2 e c' log' run).elim
    · exact ⟨m, c', log', rfl⟩
  · refine (Stage.builtin_run_sound (mem_enabledStages_builtin.mp hs).1 sound).mono ?_
    rintro _ _ ⟨m, rfl, sound, place⟩
    refine ⟨?_, .inr ⟨m, rfl, place.document document⟩⟩
    rintro _ ⟨⟩
    exact ⟨sound, place.document document⟩

/-- Whenever the pipeline gives a document, the document renders as well-formed markup. The pipeline
does give one, unless a node holds an id to hand on that cannot be the key of a map. -/
theorem rendered_wellFormed (o : Options) (d : Node) (c : Context) (log : Log.Records)
    (closed : ∀ n ∈ d.nodes, Closed n) :
    (∀ m c' log', (transform Registry.builtin o d c).run log = ((.ok m, c'), log') →
      ∀ log, ∃ html, (Pipeline.render m).run log = (.ok html, log) ∧ WellFormed html) ∧
    (d.kind = .document → (∀ n ∈ d.nodes, ((n.info.get? Blocks.markerKey).getD .null).isKey = true) →
      ∃ m c' log', (transform Registry.builtin o d c).run log = ((.ok m, c'), log')) := by
  refine ⟨?_, ?_⟩
  · intro m c' log' ok log
    have source : SoundTree True True d := fun n hn => (closed n hn).sound (.inr trivial)
    exact render_wellFormed (transform_sound source ok) log
  · intro document keys
    exact transform_ok (fun n hn => (closed n hn).sound (.inl (keys n hn))) document

/-- A callout whose title, text and embedded file are full of characters of markup. -/
def hostileNote : Node :=
  .branch .document [.branch .blockQuote
    [.branch .paragraph [Node.ofText "[!note] <b title='&'>"] [],
     .branch .paragraph [Node.ofText "</p>&amp", .leaf (.wikiLink ⟨"\">.mp4", none, none, true⟩) [],
       .branch .highlight [Node.ofText "<i>"] []] []] []] []

theorem hostileNote_wellFormed :
    ∃ m c log html, (transform Registry.builtin Options.defaults hostileNote
        (Context.new "n" none)).run [] = ((.ok m, c), log) ∧
      (Pipeline.render m).run log = (.ok html, log) ∧ WellFormed html := by
  obtain ⟨renders, given⟩ := rendered_wellFormed Options.defaults hostileNote (Context.new "n" none)
    [] (by decide)
  obtain ⟨m, c, log, transformed⟩ := given rfl (by decide)
  obtain ⟨html, rendered, wellFormed⟩ := renders m c log transformed log
  exact ⟨m, c, log, html, transformed, rendered, wellFormed⟩

end NoteMarkup.Pipeline
