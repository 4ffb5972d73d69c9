import NoteMarkup.Proofs.Escaping
import NoteMarkup.Proofs.Fragment
import NoteMarkup.Proofs.JsonQuoting
import NoteMarkup.Proofs.OwnConstructs
import NoteMarkup.Proofs.ReadMarkup
import NoteMarkup.Proofs.ShownLeaves

/-! The source of a diagram in its markup. The attribute for the copy button is set once, to the source as a
literal, and a literal in an attribute reads back as the source. The stage changes the markup nowhere
else, and notes that there is a diagram just if the tree holds one. -/

namespace NoteMarkup

open Html Node

namespace Stage.Blocks

open Retouch

variable {o : Options} {n : Node} {info as : Record} {content : String}

/-- The key of the attribute that the copy button reads. -/
def clipboardKey : Value := .str "data-clipboard"

/-- The element of a diagram, with an attribute for the copy button that gives the source back. -/
def CopiesSource (content piece : String) : Prop :=
  ∃ front back value, piece = "<pre><code" ++ attributes front ++ " data-clipboard=\"" ++ value ++ "\"" ++
      attributes back ++ ">" ++ escape content ++ "</code></pre>\n" ∧
    (∀ e ∈ front ++ back, e.1 ≠ clipboardKey) ∧ '"' ∉ value.toList ∧
    Json.load (unescaped value).toList = .ok (.str content)

/-- What a leaf renders as before the stage and after it. -/
inductive Prepared : Leaf × Record → String × String → Prop where
  | diagram {content old new : String} {info : Record} :
      renderLeaf (.codeBlock content (some "mermaid")) info = .ok old → CopiesSource content new →
      Prepared (.codeBlock content (some "mermaid"), info) (old, new)
  | other {l : Leaf} {info : Record} {piece : String} : Retouch.isDiagram l = false →
      renderLeaf l info = .ok piece → Prepared (l, info) (piece, piece)

/-! ### One diagram -/

/-- The attributes that the kind of the element gives. -/
def diagramBase : Record := [(.str "class", .list [.str ("language-" ++ "mermaid")])]

theorem renderLeaf_diagram (has : HasAttrs info as) (content : String) :
    renderLeaf (.codeBlock content (some "mermaid")) info =
      .ok ("<pre>" ++ element "code" (attributes (diagramBase.merge as)) (escape content) ++ "</pre>\n") := by
  have attrs : nodeAttributes diagramBase info = .ok (attributes (diagramBase.merge as)) := by
    rw [nodeAttributes, has.attrsOf]
    rfl
  change (nodeAttributes diagramBase info >>= _) = _
  rw [attrs]
  rfl

theorem copiesSource_diagram (distinct : Entries.Distinct as) (content : String) :
    CopiesSource content ("<pre>" ++ element "code" (attributes (diagramBase.merge (as.merge
      (diagramAttrs content)))) (escape content) ++ "</pre>\n") := by
  have given : Entries.SetsOnce (diagramAttrs content) "data-clipboard" (.str (Json.quoted content)) :=
    ⟨[(.str "class", .list [.str "mermaid"])], [], rfl, by simp⟩
  have own := Record.setsOnce_merge (distinct.setsAtMostOnce _) given
  obtain ⟨front, back, split, fresh⟩ := Record.setsOnce_merge (r := diagramBase) (.inl rfl) own
  refine ⟨front, back, escape (Json.quoted content), ?_, fresh, ?_, ?_⟩
  · have one : formatAttribute (.str "data-clipboard") (.str (Json.quoted content)) =
        " data-clipboard=\"" ++ escape (Json.quoted content) ++ "\"" := rfl
    rw [split, attributes_append, attributes_cons, one]
    apply String.ext
    simp [element]
  · exact (not_mem_of_isPlainChars (isPlain_escape _)).2
  · rw [unescaped_escape, Json.load_quoted]

theorem isDiagram_eq_raisesAt (n : Node) : isDiagram n = Retouch.diagrams.raisesAt n := by
  cases n with
  | leaf l info =>
      change isDiagram (.leaf l info) = Retouch.isDiagram l
      unfold isDiagram Retouch.isDiagram
      split <;> split <;> simp_all
  | branch c cs info => rfl
  | table header rows al info => rfl

theorem eq_codeBlock_of_isDiagram {l : Leaf} (h : Retouch.isDiagram l = true) :
    ∃ content, l = .codeBlock content (some "mermaid") := by
  unfold Retouch.isDiagram at h
  split at h
  · next content => exact ⟨content, rfl⟩
  · cases h

/-- Each leaf renders just if it did before. -/
theorem exchanges_diagramLeaf : Exchanges diagramLeaf := by
  rintro ⟨l, info⟩
  by_cases diagram : Retouch.isDiagram l = true
  · obtain ⟨content, rfl⟩ := eq_codeBlock_of_isDiagram diagram
    by_cases styled : ∃ as, HasAttrs info as
    · obtain ⟨as, has⟩ := styled
      exact .leaf (renderLeaf_diagram has content) (renderLeaf_diagram (hasAttrs_dress _ has) content)
    · obtain ⟨e, stopped⟩ := addAttrs_error (diagramAttrs content) styled
      have kept : dress (diagramAttrs content) info = info := by
        rw [dress, stopped]
        rfl
      exact .same (congrArg (Prod.mk _) kept)
  · exact .same (diagramLeaf_of_ne (by simpa using diagram))

theorem prepared_of_exchanged {p : Leaf × Record} {swap : String × String}
    (styled : Retouch.isDiagram p.1 = true → ∃ as, HasAttrs p.2 as ∧ Entries.Distinct as)
    (old : renderLeaf p.1 p.2 = .ok swap.1)
    (new : renderLeaf (diagramLeaf p).1 (diagramLeaf p).2 = .ok swap.2) : Prepared p swap := by
  obtain ⟨l, info⟩ := p
  obtain ⟨before, after⟩ := swap
  by_cases diagram : Retouch.isDiagram l = true
  · obtain ⟨content, rfl⟩ := eq_codeBlock_of_isDiagram diagram
    obtain ⟨as, has, distinct⟩ := styled diagram
    have made := renderLeaf_diagram (hasAttrs_dress (diagramAttrs content) has) content
    obtain rfl := Except.ok.inj (made.symm.trans new)
    exact .diagram old (copiesSource_diagram distinct content)
  · have plain : Retouch.isDiagram l = false := by simpa using diagram
    rw [diagramLeaf_of_ne plain] at new
    obtain rfl : before = after := Except.ok.inj (old.symm.trans new)
    exact .other plain old

/-! ### The whole tree -/

/-- The diagrams whose render attributes can be added to. -/
def Dressable (n : Node) : Prop := isDiagram n = true → ∃ as, HasAttrs n.info as

theorem stops_of_not_dressable (inLink : Bool) (n : Node) (h : ¬Dressable n) :
    Stops (visitDiagram o inLink n) := by
  obtain ⟨diagram, unstyled⟩ := Classical.not_imp.mp h
  cases n with
  | branch c cs info => cases diagram
  | table header rows al info => cases diagram
  | leaf l info =>
      intro c log
      dsimp only [visitDiagram, Visit.ofLeaf]
      split
      · next content =>
          obtain ⟨e, stopped⟩ := withAttrs_error (diagramAttrs content) unstyled
          rw [diagramAttrs] at stopped
          rw [stopped]
          exact ⟨e, _, rfl⟩
      · next other =>
          rw [isDiagram_eq_raisesAt] at diagram
          obtain ⟨content, rfl⟩ := eq_codeBlock_of_isDiagram diagram
          exact (other content rfl).elim

theorem raisesIn_diagrams (n : Node) :
    Retouch.diagrams.raisesIn n = true ↔ ∃ d ∈ n.nodes, isDiagram d = true := by
  simp only [isDiagram_eq_raisesAt]
  exact List.any_eq_true

/-- If every diagram can be styled, the stage is done with the tree, else it stops at the first that
cannot. -/
theorem visitDiagram_run (o : Options) (n : Node) (c : Context) (log : Log.Records) :
    (All Dressable n ∧ ∃ log', (visitDiagram.run o n).outcome ⟨c, log⟩ =
      (.ok (some (Retouch.diagrams.tree n)), ⟨c.raise (Retouch.diagrams.raisesIn n), log'⟩)) ∨
    (¬All Dressable n ∧ ∃ e log', (visitDiagram.run o n).outcome ⟨c, log⟩ =
      (.error e, ⟨c.raise true, log'⟩)) := by
  have done : Retouch.diagrams.DoneWhere Dressable (visitDiagram o) := by
    have same : Dressable = fun n => Retouch.diagrams.raisesAt n = true → ∃ as, HasAttrs n.info as := by
      funext n
      rw [Dressable, isDiagram_eq_raisesAt]
    rw [same]
    exact diagrams_where o
  by_cases styled : All Dressable n
  · exact .inl ⟨styled, done.run n false c log styled⟩
  · exact .inr ⟨styled, done.stops stops_of_not_dressable n false styled c log⟩

/-- The copy button of every diagram gets its source, the stage changes nothing else in the markup, and
the context notes a diagram just if there is one. -/
theorem visitDiagram_copies (o : Options) (n : Node) (r : Run)
    (distinct : ∀ d ∈ n.nodes, isDiagram d = true → ∀ as, HasAttrs d.info as → Entries.Distinct as) :
    (((visitDiagram.run o n).outcome r).2.context.hasDiagram = true ↔
      r.context.hasDiagram = true ∨ ∃ d ∈ n.nodes, isDiagram d = true) ∧
    ((∃ m, ((visitDiagram.run o n).outcome r).1 = .ok (some m)) ↔
      ∀ d ∈ n.nodes, isDiagram d = true → ∃ as, HasAttrs d.info as) ∧
    (∀ m, ((visitDiagram.run o n).outcome r).1 = .ok (some m) →
      (∃ f f', ofDocument n = .error f ∧ ofDocument m = .error f') ∨
      ∃ old new swaps, ofDocument n = .ok old ∧ ofDocument m = .ok new ∧ Exchanged swaps old new ∧
        List.Forall₂ Prepared (shown .flow n) swaps) ∧
    (All (isPlaced · = true) n → n.place = .flow → shown .flow n = leaves n) := by
  have placed : All (isPlaced · = true) n → n.place = .flow → shown .flow n = leaves n :=
    fun all flow => flow ▸ shown_eq_leaves all
  have usable (styled : All Dressable n) : ∀ p ∈ shown .flow n, Retouch.isDiagram p.1 = true →
      ∃ as, HasAttrs p.2 as ∧ Entries.Distinct as := by
    intro p member diagram
    have inTree : Node.leaf p.1 p.2 ∈ n.nodes := mem_leaves.mp (mem_leaves_of_mem_shown .flow member)
    have source : isDiagram (.leaf p.1 p.2) = true := (isDiagram_eq_raisesAt _).trans diagram
    obtain ⟨as, has⟩ := styled _ inTree source
    exact ⟨as, has, distinct _ inTree source as has⟩
  rcases visitDiagram_run o n r.context r.log with ⟨styled, log', ran⟩ | ⟨unstyled, e, log', ran⟩
  · rw [ran]
    refine ⟨?_, ⟨fun _ => styled, fun _ => ⟨_, rfl⟩⟩, ?_, placed⟩
    · rw [← raisesIn_diagrams, or_comm]
      exact Bool.or_eq_true _ _ ▸ Iff.rfl
    · rintro m ⟨⟩
      have filled : Refilled diagramLeaf (shown .flow n) (render false n)
          (render false (Retouch.diagrams.tree n)) := render_refilled exchanges_diagramLeaf false n
      rw [ofDocument_eq, ofDocument_eq]
      generalize render false n = old, render false (Retouch.diagrams.tree n) = new at filled ⊢
      cases filled with
      | error f f' => exact .inl ⟨f, f', rfl, rfl⟩
      | ok exchanged pieces =>
          refine .inr ⟨_, _, _, rfl, rfl, exchanged, ?_⟩
          exact ((List.forall₂_and_left _ _).mpr ⟨usable styled, pieces⟩).imp fun p swap h =>
            prepared_of_exchanged h.1 h.2.1 h.2.2
  · rw [ran]
    refine ⟨⟨fun _ => .inr ?_, fun _ => rfl⟩, ⟨?_, fun styled => (unstyled styled).elim⟩, nofun, placed⟩
    · by_contra none
      exact unstyled fun d hd diagram => (none ⟨d, hd, diagram⟩).elim
    · rintro ⟨m, ⟨⟩⟩

/-- A diagram in a quote, with a quotation mark, a letter outside ASCII and a character with two units. -/
def quotedDiagram : Node :=
  .branch .document [.branch .blockQuote
    [.leaf (.codeBlock "graph TD\n  A-->B[\"ü 😀\"]" (some "mermaid")) []] []] []

theorem quotedDiagram_copied :
    (∀ d ∈ quotedDiagram.nodes, isDiagram d = true → ∀ as, HasAttrs d.info as → Entries.Distinct as) ∧
    ((visitDiagram.run default quotedDiagram).outcome default).2.context.hasDiagram = true ∧
    ∃ m, ((visitDiagram.run default quotedDiagram).outcome default).1 = .ok (some m) := by
  have bare : ∀ d ∈ quotedDiagram.nodes, d.info = [] := by simp [quotedDiagram, nodes, nodesOf, Node.info]
  have none : HasAttrs [] [] := .of_none rfl
  have distinct : ∀ d ∈ quotedDiagram.nodes, isDiagram d = true → ∀ as, HasAttrs d.info as →
      Entries.Distinct as := by
    intro d hd _ as has
    rw [bare d hd] at has
    rw [has.unique none]
    exact List.nodup_nil
  have copied := visitDiagram_copies default quotedDiagram default distinct
  refine ⟨distinct, copied.1.mpr (.inr ?_), copied.2.1.mpr fun d hd _ => ?_⟩
  · exact ⟨_, List.mem_cons_of_mem _ (List.mem_cons_of_mem _ List.mem_cons_self), rfl⟩
  · exact ⟨[], (bare d hd).symm ▸ none⟩

end Stage.Blocks

end NoteMarkup
