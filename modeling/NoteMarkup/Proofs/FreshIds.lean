import NoteMarkup.Proofs.BlockNaming
import NoteMarkup.Proofs.Soundness

/-! Only the stage that reads the markers of blocks brings in ids and markers, so before it runs a tree
without them stays one. -/

namespace NoteMarkup.Stage

open Html Node Blocks

variable {n m : Node} {as new info : Record}

namespace Blocks

theorem unnamed_of_attrs (has : HasAttrs n.info as) (id : as.get? idKey = none)
    (marker : n.info.get? markerKey = none) : Unnamed n :=
  ⟨⟨as, has⟩, (idOf?_eq has).trans id, marker⟩

theorem unnamed_of_none (attrs : n.info.get? attrsKey = none) (marker : n.info.get? markerKey = none) :
    Unnamed n := unnamed_of_attrs (.of_none attrs) rfl marker

/-- Attributes other than the id leave a node unnamed. -/
theorem Unnamed.withNew (h : Unnamed n) (has : HasAttrs n.info as) (named : new.Named)
    (other : new.get? idKey = none) : Unnamed (n.styled as new) := by
  have id := h.id
  rw [idOf?_eq has] at id
  refine unnamed_of_attrs (show HasAttrs _ (as.merge new) from ?_) ?_ ?_
  · rw [Node.styled, info_withInfo]
    exact .set_self _ _
  · rw [idKey, Record.get?_merge_of_none named other]
    exact id
  · rw [Node.styled, info_withInfo, attrsKey, markerKey, Record.get?_set_of_ne (by decide)]
    exact h.marker

theorem all_withNew (h : All Unnamed n) (has : HasAttrs n.info as) (named : new.Named)
    (other : new.get? idKey = none) : All Unnamed (n.styled as new) := by
  refine all_iff.mpr ⟨h.self.withNew has named other, ?_⟩
  rw [Node.styled, children_withInfo]
  exact fun c hc => h.child hc

theorem all_generatedInline (content : String) : All Unnamed (.generatedInline content) :=
  all_leaf.mpr (unnamed_of_none rfl rfl)

theorem all_ofText (text : String) : All Unnamed (.ofText text) := all_leaf.mpr (unnamed_of_none rfl rfl)

theorem all_unnamed_of_renewed {n' : Node} (h : Unnamed n)
    (renewed : Renewed (fun _ m => All Unnamed m) n n') : All Unnamed n' := by
  refine all_iff.mpr ⟨h.congr renewed.info, fun c hc => ?_⟩
  obtain ⟨-, -, unnamed⟩ := renewed.exists_child hc
  exact unnamed

end Blocks

theorem Links.Replacement.unnamed (h : Replacement m) : All Unnamed m := by
  cases h with
  | link res =>
      unfold linkNode
      split
      · exact all_generatedInline _
      · exact all_branch.mpr ⟨unnamed_of_none rfl rfl, List.forall_mem_singleton.mpr (all_ofText _)⟩
  | image url d =>
      refine all_withNew (all_leaf.mpr (unnamed_of_none rfl rfl)) (.of_none rfl) ?_ rfl
      exact (nameable_cons rfl (nameable_cons rfl (nameable_single rfl _))).named
  | video | audio | pdf => exact all_generatedInline _
  | transclude => exact all_leaf.mpr (unnamed_of_none rfl rfl)

theorem Links.Rewrites.unnamed (h : Rewrites n m) (unnamed : All Unnamed n) : All Unnamed m := by
  cases h with
  | keep => exact unnamed
  | reference _ replaced => exact replaced.unnamed

theorem Highlights.Rewrites.unnamed (h : Rewrites n m) (unnamed : All Unnamed n) : All Unnamed m := by
  cases h with
  | keep => exact unnamed
  | span => exact all_generatedInline _

theorem Tags.Rewrites.unnamed (h : Rewrites n m) (unnamed : All Unnamed n) : All Unnamed m := by
  cases h with
  | keep => exact unnamed
  | text => exact all_ofText _
  | @link value info context =>
      have bare : All Unnamed (.branch (.link (context.tagUrl (Slug.ofTag value)) none)
          [Node.ofText (Slug.ofTag value)] []) :=
        all_branch.mpr ⟨unnamed_of_none rfl rfl, List.forall_mem_singleton.mpr (all_ofText _)⟩
      have named : Record.Named [(.str "class", .list [.str "tag-link"])] :=
        (nameable_single rfl _).named
      exact all_withNew bare (.of_none rfl) named rfl

theorem Media.Rewrites.unnamed {markup : String → Option String} (h : Rewrites markup n m)
    (unnamed : All Unnamed n) : All Unnamed m := by
  cases h with
  | keep => exact unnamed
  | embed => exact all_generatedInline _

theorem Callouts.Rewrites.unnamed (h : Rewrites n m) (unnamed : All Unnamed n) : All Unnamed m := by
  cases h with
  | keep => exact unnamed
  | @rebuild cs info opening title as _ opened rendered has =>
      obtain ⟨self, below⟩ := all_branch.mp unnamed
      have id : as.get? idKey = none := by
        rw [← idOf?_eq (n := .branch .blockQuote cs info) has, self.id]
      obtain ⟨content, textInfo, firstInfo, rfl⟩ := opening?_eq_some opened
      obtain ⟨-, rest⟩ := List.forall_mem_cons.mp below
      have has' : HasAttrs (info.set calloutKey opening.directive.toValue) as :=
        (hasAttrs_set_of_ne (by decide) _).mpr has
      refine all_withNew (all_branch.mpr ⟨unnamed_of_attrs has' id ?_, fun m hm => ?_⟩) has'
        (attributes_made opening.directive).named rfl
      · exact (Record.get?_set_of_ne (by decide)).trans self.marker
      · rcases mem_body hm with rfl | rfl | rfl
        · exact all_leaf.mpr (unnamed_of_none rfl rfl)
        · exact all_branch.mpr ⟨unnamed_of_none rfl rfl, List.forall_mem_singleton.mpr (all_ofText _)⟩
        · exact all_branch.mpr ⟨unnamed_of_attrs (.inr rfl) rfl rfl, rest⟩

theorem RawMarkup.Rewrites.unnamed (h : Rewrites n m) (unnamed : All Unnamed n) : All Unnamed m := by
  cases h with
  | keep => exact unnamed
  | block new | inline new => exact all_leaf.mpr (unnamed.self.congr rfl)

theorem Media.AppLinked.unnamed (h : AppLinked n m) (unnamed : All Unnamed n) : All Unnamed m := by
  cases h with
  | keep => exact unnamed
  | mark _ has => exact all_withNew unnamed has (nameable_single rfl _).named rfl

theorem Blocks.DiagramMarked.unnamed (h : DiagramMarked n m) (unnamed : All Unnamed n) :
    All Unnamed m := by
  cases h with
  | keep => exact unnamed
  | mark has => exact all_withNew unnamed has (nameable_cons rfl (nameable_single rfl _)).named rfl

theorem Blocks.TaskMarked.unnamed (h : TaskMarked n m) (unnamed : All Unnamed n) : All Unnamed m := by
  cases h with
  | keep => exact unnamed
  | @mark state cs info as has =>
      obtain ⟨self, below⟩ := all_branch.mp unnamed
      have id : as.get? idKey = none := by
        rw [← idOf?_eq (n := .branch (.listItem (some state)) cs info) has, self.id]
      have has' : HasAttrs (info.set Html.interactiveKey (.bool true)) as :=
        (hasAttrs_set_of_ne (by decide) _).mpr has
      refine all_withNew (all_branch.mpr ⟨unnamed_of_attrs has' id ?_, below⟩) has'
        (nameable_single rfl _).named rfl
      exact (Record.get?_set_of_ne (by decide)).trans self.marker

theorem visit_unnamed {s : Stage} (hs : s ∈ builtin) (other : s.option ≠ some .parseBlockReferences)
    {o : Options} {inLink : Bool} {r : Run} (unnamed : All Unnamed n) :
    Visited (s.transformation.visit o inLink n) r (All Unnamed) True := by
  simp only [builtin, List.mem_cons, List.not_mem_nil, or_false] at hs
  rcases hs with rfl | rfl | rfl | rfl | rfl | rfl | rfl | rfl | rfl | rfl | rfl | rfl
  · exact Links.visit_yields.imp fun m h => h.unnamed unnamed
  · exact Highlights.visit_yields.imp fun m h => h.unnamed unnamed
  · exact Tags.visit_yields.imp fun m h => h.unnamed unnamed
  · exact RawMarkup.visit_yields.imp fun m h => h.unnamed unnamed
  · exact Media.visitVideo_yields.imp fun m h => h.unnamed unnamed
  · exact (Callouts.visit_yields (fun _ _ _ _ _ _ => trivial) fun _ => trivial).imp
      fun m h => h.unnamed unnamed
  · exact (Blocks.visitDiagram_yields fun _ => trivial).imp fun m h => h.unnamed unnamed
  · exact (other rfl).elim
  · exact Media.visitPlayer_yields.imp fun m h => h.unnamed unnamed
  · exact Media.visitStatus_yields.imp fun m h => h.unnamed unnamed
  · exact (Blocks.visitTask_yields fun _ => trivial).imp fun m h => h.unnamed unnamed
  · exact (Media.visitAppLink_yields (fun _ => trivial) fun _ _ _ _ => trivial).imp
      fun m h => h.unnamed unnamed

/-- Only the stage that reads markers names blocks. -/
theorem run_unnamed {s : Stage} (hs : s ∈ builtin) (other : s.option ≠ some .parseBlockReferences)
    {o : Options} {r : Run} (unnamed : All Unnamed n) :
    Visited (s.transformation.visit.run o n) r (All Unnamed) True :=
  Node.transform_yields
    (fun _ _ _ _ h renewed => visit_unnamed hs other (all_unnamed_of_renewed h renewed)) n false r unnamed

end NoteMarkup.Stage
