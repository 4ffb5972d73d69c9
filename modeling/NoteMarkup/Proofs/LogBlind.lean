import NoteMarkup.Proofs.PipelineRun
import NoteMarkup.Proofs.RawPasses
import NoteMarkup.Proofs.Tree

/-! The log is for readers only. What a built-in stage makes of a tree and of the context does not
depend on what was logged before. -/

namespace NoteMarkup

namespace StageM

variable {α β : Type}

/-- The step gives the same result and leaves the same context after every log. -/
def Blind (x : StageM α) : Prop := ∀ c log log', ∃ result d later later',
  x.outcome ⟨c, log⟩ = (result, ⟨d, later⟩) ∧ x.outcome ⟨c, log'⟩ = (result, ⟨d, later'⟩)

namespace Blind

protected theorem pure (a : α) : (pure a : StageM α).Blind := fun _ _ _ => ⟨_, _, _, _, rfl, rfl⟩

protected theorem throw (e : Fault) : (throw e : StageM α).Blind :=
  fun _ _ _ => ⟨_, _, _, _, rfl, rfl⟩

protected theorem context : StageM.context.Blind := fun _ _ _ => ⟨_, _, _, _, rfl, rfl⟩

protected theorem modifyContext (f : Context → Context) : (StageM.modifyContext f).Blind :=
  fun _ _ _ => ⟨_, _, _, _, rfl, rfl⟩

protected theorem debug (module text : String) : (StageM.debug module text).Blind :=
  fun _ _ _ => ⟨_, _, _, _, rfl, rfl⟩

protected theorem ofExcept (r : Except Fault α) : (StageM.ofExcept r).Blind := by
  cases r with
  | ok a => exact .pure a
  | error e => exact .throw e

protected theorem bind {x : StageM α} {f : α → StageM β} (hx : x.Blind) (hf : ∀ a, (f a).Blind) :
    (x >>= f).Blind := by
  intro c log log'
  obtain ⟨result, d, later, later', hl, hr⟩ := hx c log log'
  cases result with
  | error e =>
      rw [outcome_bind_error hl, outcome_bind_error hr]
      exact ⟨_, _, _, _, rfl, rfl⟩
  | ok a =>
      rw [outcome_bind_ok hl, outcome_bind_ok hr]
      exact hf a d later later'

theorem bind_throw (e : Fault) (f : α → StageM β) : ((throw e : StageM α) >>= f).Blind :=
  fun _ _ _ => ⟨_, _, _, _, rfl, rfl⟩

protected theorem map {x : StageM α} (f : α → β) (hx : x.Blind) : (f <$> x).Blind := by
  rw [map_eq_bind]
  exact hx.bind fun a => .pure (f a)

protected theorem mapM {f : α → StageM β} (hf : ∀ a, (f a).Blind) (as : List α) :
    (as.mapM f).Blind := by
  induction as with
  | nil =>
      rw [List.mapM_nil]
      exact .pure []
  | cons a as ih =>
      rw [List.mapM_cons]
      exact (hf a).bind fun b => ih.bind fun bs => .pure (b :: bs)

end Blind

end StageM

namespace Node

theorem transform_blind {f : Bool → Node → StageM (Option Node)} (visit : ∀ inLink n, (f inLink n).Blind)
    (n : Node) : ∀ inLink, (n.transform f inLink).Blind := by
  have list : ∀ ns : List Node, (∀ n ∈ ns, ∀ inLink, (n.transform f inLink).Blind) →
      ∀ inLink, (transformAll f inLink ns).Blind := by
    intro ns each inLink
    induction ns with
    | nil => exact .pure []
    | cons n ns ih =>
        rw [transformAll]
        obtain ⟨first, later⟩ := List.forall_mem_cons.mp each
        exact (first inLink).bind fun _ => (ih later).bind fun _ => .pure _
  induction n using induct with
  | leaf l info => exact fun inLink => visit inLink _
  | branch c cs info ih =>
      intro inLink
      rw [transform]
      exact (list cs ih _).bind fun _ => visit inLink _
  | table header rows al info hheader hrows =>
      intro inLink
      cases header with
      | none =>
          rw [transform]
          exact (list rows hrows inLink).bind fun _ => visit inLink _
      | some header =>
          rw [transform]
          refine (list rows hrows inLink).bind fun _ => ?_
          exact (hheader header rfl inLink).bind fun _ => visit inLink _

end Node

namespace Stage

open StageM

variable {o : Options} {inLink : Bool} {n : Node}

theorem ofLeaf_blind {f : Options → Bool → Leaf → Record → StageM (Option Node)}
    (hf : ∀ l info, (f o inLink l info).Blind) : (Visit.ofLeaf f o inLink n).Blind := by
  cases n with
  | leaf l info => exact hf l info
  | branch c cs info => exact .pure _
  | table header rows al info => exact .pure _

namespace Links

theorem resolveM_blind (target : String) (anchor label : Option String) :
    (resolveM target anchor label o).Blind := by
  unfold resolveM
  refine .bind .context fun c => ?_
  dsimp only
  split
  · exact .bind (.debug _ _) fun _ => .pure _
  · exact .pure _

theorem embed_blind (target : String) (anchor label : Option String) :
    (embed target anchor label).Blind := by
  unfold embed
  dsimp only
  split
  · exact .ofExcept _
  · exact .pure _
  · exact .pure _
  · exact .pure _
  · exact .bind (.debug _ _) fun _ => .pure _

theorem visit_blind : (visit o inLink n).Blind := by
  refine ofLeaf_blind fun l info => ?_
  split
  · refine .map some ?_
    unfold replace
    dsimp only
    split
    · exact embed_blind _ _ _
    · exact (resolveM_blind _ _ _).bind fun _ => .pure _
  · exact .pure _

end Links

theorem Highlights.visit_blind : (visit o inLink n).Blind := by
  unfold visit
  split <;> exact .pure _

namespace Tags

theorem register_blind (value : String) : (register value).Blind := by
  unfold register
  refine .bind .context fun c => ?_
  dsimp only
  split
  · exact .bind (.modifyContext _) fun _ => .bind (.debug _ _) fun _ => .pure _
  · exact .pure _

theorem visit_blind : (visit o inLink n).Blind := by
  refine ofLeaf_blind fun l info => ?_
  split
  · refine .map some ?_
    unfold replace
    split
    · exact .pure _
    · exact (register_blind _).bind fun _ => .bind .context fun _ => .pure _
  · exact .pure _

end Tags

namespace RawMarkup

theorem resolveLinks_blind (s : List Char) : (resolveLinks o s).Blind := by
  refine .bind (.mapM ?_ _) fun _ => .pure _
  intro piece
  split
  · exact .pure _
  · split
    · exact .pure _
    · exact (Links.resolveM_blind _ _ _).bind fun _ => .pure _

theorem resolveTags_blind (s : List Char) : (resolveTags s).Blind := by
  refine .bind (.mapM ?_ _) fun _ => .pure _
  intro piece
  split
  · exact .pure _
  · split
    · exact .pure _
    · exact (Tags.register_blind _).bind fun _ => .bind .context fun _ => .pure _

theorem resolve_blind (html : String) : (resolve o html).Blind := by
  rw [resolve_eq]
  refine .bind ?_ fun s => .bind ?_ fun _ => .pure _
  · split
    · exact resolveLinks_blind _
    · exact .pure _
  · unfold resolveMarks
    split
    · exact resolveTags_blind _
    · exact .pure _

theorem visit_blind : (visit o inLink n).Blind := by
  refine ofLeaf_blind fun l info => ?_
  split
  · split
    · exact .pure _
    · exact (resolve_blind _).bind fun _ => .pure _
  · split
    · exact .pure _
    · exact (resolve_blind _).bind fun _ => .pure _
  · exact .pure _

end RawMarkup

namespace Media

theorem visitVideo_blind : (visitVideo o inLink n).Blind := by
  refine ofLeaf_blind fun l info => ?_
  split
  · split
    · exact .bind (.debug _ _) fun _ => .pure _
    · exact .pure _
  · exact .pure _

theorem visitPlayer_blind : (visitPlayer o inLink n).Blind := by
  refine ofLeaf_blind fun l info => ?_
  split
  · split
    · exact .bind (.debug _ _) fun _ => .pure _
    · exact .pure _
  · exact .pure _

theorem visitStatus_blind : (visitStatus o inLink n).Blind := by
  refine ofLeaf_blind fun l info => ?_
  split
  · split
    · exact .bind (.debug _ _) fun _ => .pure _
    · exact .pure _
  · exact .pure _

theorem visitAppLink_blind : (visitAppLink o inLink n).Blind := by
  unfold visitAppLink
  split
  · dsimp only
    split
    · exact .bind (.ofExcept _) fun _ => .bind (.ofExcept _) fun _ => .pure _
    · exact .pure _
  · exact .pure _

end Media

theorem Callouts.visit_blind : (visit o inLink n).Blind := by
  unfold visit
  split
  · split
    · exact .pure _
    · split
      · refine .map some (.bind (.ofExcept _) fun _ => .bind .context fun _ => ?_)
        exact .bind (.debug _ _) fun _ => .ofExcept _
      · exact .pure _
  · exact .pure _

namespace Blocks

theorem visitDiagram_blind : (visitDiagram o inLink n).Blind := by
  refine ofLeaf_blind fun l info => ?_
  split
  · refine .bind (.modifyContext _) fun _ => .bind .context fun _ => ?_
    exact .bind (.debug _ _) fun _ => .map some (.ofExcept _)
  · exact .pure _

theorem visitTask_blind : (visitTask o inLink n).Blind := by
  unfold visitTask
  split
  · exact .map some (.ofExcept _)
  · exact .pure _

theorem register_blind (n : Node) (id : Value) : (register n id).Blind := by
  unfold register
  dsimp only
  split
  · exact .bind_throw _ _
  · refine .bind .context fun c => ?_
    -- the block is named in the same way after a duplicate has been reported
    cases n.withAttrs [(idKey, id)] with
    | ok named =>
        dsimp only
        split
        · exact .bind (.debug _ _) fun _ => .bind (.modifyContext _) fun _ => .pure _
        · exact .bind (.modifyContext _) fun _ => .pure _
    | error e =>
        dsimp only
        split
        · exact .bind (.debug _ _) fun _ => .bind (.modifyContext _) fun _ => .throw _
        · exact .bind (.modifyContext _) fun _ => .throw _

theorem attach_blind (ns done : List Node) : (attach done ns).Blind := by
  induction ns generalizing done with
  | nil => exact .pure _
  | cons n ns ih =>
      unfold attach
      dsimp only
      split
      · exact ih _
      · exact ih _
      · exact (register_blind _ _).bind fun _ => ih _

theorem markParagraph_blind (content : List Node) (info : Record) :
    (markParagraph content info).Blind := by
  unfold markParagraph
  dsimp only
  split
  · split
    · exact .pure _
    · split
      · exact .pure _
      · exact register_blind _ _
  · exact .pure _

theorem adoptId_blind (mark : Option TaskMark) (children : List Node) (info : Record) :
    (adoptId mark children info).Blind := by
  unfold adoptId
  dsimp only
  split
  · refine .bind (.ofExcept _) fun attrs => ?_
    split
    · exact .pure _
    · split
      · exact .bind_throw _ _
      · exact .bind (.modifyContext _) fun _ => register_blind _ _
  · exact .pure _

theorem visitMarker_blind : (visitMarker o inLink n).Blind := by
  unfold visitMarker
  split
  · exact .map some (markParagraph_blind _ _)
  · exact .bind (attach_blind _ _) fun _ => .pure _
  · exact .bind (attach_blind _ _) fun _ => .pure _
  · exact .bind (attach_blind _ _) fun _ => .map some (adoptId_blind _ _ _)
  · exact .pure _

end Blocks

theorem builtin_visit_blind {s : Stage} (hs : s ∈ builtin) :
    (s.transformation.visit o inLink n).Blind := by
  simp only [builtin, List.mem_cons, List.not_mem_nil, or_false] at hs
  rcases hs with rfl | rfl | rfl | rfl | rfl | rfl | rfl | rfl | rfl | rfl | rfl | rfl
  · exact Links.visit_blind
  · exact Highlights.visit_blind
  · exact Tags.visit_blind
  · exact RawMarkup.visit_blind
  · exact Media.visitVideo_blind
  · exact Callouts.visit_blind
  · exact Blocks.visitDiagram_blind
  · exact Blocks.visitMarker_blind
  · exact Media.visitPlayer_blind
  · exact Media.visitStatus_blind
  · exact Blocks.visitTask_blind
  · exact Media.visitAppLink_blind

theorem builtin_run_blind {s : Stage} (hs : s ∈ builtin) :
    (s.transformation.visit.run o n).Blind :=
  Node.transform_blind (fun _ _ => builtin_visit_blind hs) n false

end Stage

namespace Pipeline

variable {o : Options}

/-- A run of built-in stages gives the same document or error, and the same context, after every
log. -/
theorem runStages_blind (ss : List Stage) (hs : ∀ s ∈ ss, s ∈ Stage.builtin) (n : Node) (c : Context)
    (log log' : Log.Records) :
    ((runStages o n c ss).run log).1 = ((runStages o n c ss).run log').1 := by
  induction ss generalizing n c log log' with
  | nil => rfl
  | cons s ss ih =>
      obtain ⟨first, later⟩ := List.forall_mem_cons.mp hs
      obtain ⟨result, d, written, written', hl, hr⟩ := Stage.builtin_run_blind (o := o) (n := n) first c
        (log ++ [announcement s]) (log' ++ [announcement s])
      rw [runStages_cons, runStages_cons, hl, hr]
      cases result with
      | error f => rfl
      | ok k =>
          cases k with
          | none => rfl
          | some m =>
              dsimp only
              split
              · exact ih later m d written written'
              · rfl

end Pipeline

end NoteMarkup
