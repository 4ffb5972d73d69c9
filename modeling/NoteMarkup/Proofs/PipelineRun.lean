import NoteMarkup.Pipeline
import NoteMarkup.Proofs.Run

/-! Runs of the pipeline. A property that may depend on the stages still to come is handed from one
stage to the next, and holds of the document at the end. -/

namespace NoteMarkup.Pipeline

open Log

variable {o : Options} {n m : Node} {c c' : Context} {log log' : Records}

theorem runStage_run (s : Stage) :
    (runStage o s n c).run log =
      ((((s.transformation.visit.run o n).outcome ⟨c, log⟩).1,
        ((s.transformation.visit.run o n).outcome ⟨c, log⟩).2.context),
        ((s.transformation.visit.run o n).outcome ⟨c, log⟩).2.log) := rfl

/-- The record that announces a stage. -/
def announcement (s : Stage) : Log.Record := ⟨debug, logger, "Applying stage: " ++ s.name, none⟩

/-- What follows the run of a stage. -/
def afterStage (o : Options) (s : Stage) (ss : List Stage) :
    Except Fault (Option Node) × Context → Logged (Except Error Node × Context)
  | (.error f, c) => do
    writeFailure error logger ("Stage " ++ s.name ++ " failed on " ++ c.slug ++ ": ") f.message
    return (.error (.stageFailed s.name f), c)
  | (.ok none, c) => return (.error (.stageResult s.name none), c)
  | (.ok (some m), c) =>
    if m.kind == .document then runStages o m c ss
    else return (.error (.stageResult s.name (some m.kind)), c)

theorem runStages_cons (s : Stage) (ss : List Stage) :
    (runStages o n c (s :: ss)).run log =
      match (s.transformation.visit.run o n).outcome ⟨c, log ++ [announcement s]⟩ with
      | (.error f, r) => ((.error (.stageFailed s.name f), r.context), r.log ++
          [⟨error, logger, "Stage " ++ s.name ++ " failed on " ++ r.context.slug ++ ": ",
            some f.message⟩])
      | (.ok none, r) => ((.error (.stageResult s.name none), r.context), r.log)
      | (.ok (some m), r) =>
        if m.kind == .document then (runStages o m r.context ss).run r.log
        else ((.error (.stageResult s.name (some m.kind)), r.context), r.log) := by
  have announced : (runStages o n c (s :: ss)).run log =
      ((runStage o s n c).run (log ++ [announcement s]) >>=
        fun p => (afterStage o s ss p.1).run p.2 : Id _) := rfl
  rw [announced, runStage_run]
  generalize (s.transformation.visit.run o n).outcome ⟨c, log ++ [announcement s]⟩ = result
  rcases result with ⟨f | k, r⟩
  · rfl
  · cases k with
    | none => rfl
    | some m =>
        change StateT.run (if m.kind == .document then runStages o m r.context ss
          else return (.error (.stageResult s.name (some m.kind)), r.context)) r.log =
          if m.kind == .document then (runStages o m r.context ss).run r.log
          else ((.error (.stageResult s.name (some m.kind)), r.context), r.log)
        by_cases document : (m.kind == .document) = true
        · rw [if_pos document, if_pos document]
        · rw [if_neg document, if_neg document]
          rfl

/-- The stages of a list run after those of another one, unless there is an error. -/
theorem runStages_append (pre post : List Stage) :
    (runStages o n c (pre ++ post)).run log =
      match (runStages o n c pre).run log with
      | ((.ok m, c'), log') => (runStages o m c' post).run log'
      | ((.error e, c'), log') => ((.error e, c'), log') := by
  induction pre generalizing n c log with
  | nil => rfl
  | cons s pre ih =>
      rw [List.cons_append, runStages_cons, runStages_cons]
      rcases (s.transformation.visit.run o n).outcome ⟨c, log ++ [announcement s]⟩ with ⟨f | k, r⟩
      · rfl
      · cases k with
        | none => rfl
        | some m =>
            dsimp only
            split
            · exact ih
            · rfl

theorem runStages_congr {o' : Options} {ss : List Stage}
    (same : ∀ s ∈ ss, s.transformation.visit o = s.transformation.visit o') :
    runStages o n c ss = runStages o' n c ss := by
  induction ss generalizing n c with
  | nil => rfl
  | cons s ss ih =>
      obtain ⟨first, later⟩ := List.forall_mem_cons.mp same
      simp only [runStages, runStage, Visit.run, first, ih later]

theorem runStages_document {ss : List Stage} (document : n.kind = .document)
    (h : (runStages o n c ss).run log = ((.ok m, c'), log')) : m.kind = .document := by
  induction ss generalizing n c log with
  | nil =>
      cases h
      exact document
  | cons s ss ih =>
      rw [runStages_cons] at h
      split at h
      · cases h
      · cases h
      · split at h
        · next isDocument => exact ih (beq_iff_eq.mp isDocument) h
        · cases h

/-- What a run can end in: a document with `good` and a log that has grown by debug records alone,
or an error, if `stuck`. -/
structure Ends (result : (Except Error Node × Context) × Records) (log : Records)
    (good : Node → Prop) (stuck : Prop) : Prop where
  ok : ∀ m, result.1.1 = .ok m → good m ∧ AddsDebug log result.2
  error : ∀ e, result.1.1 = .error e → stuck

/-- The rule for runs. `Inv ss` holds of the document when the stages `ss` are still to come. -/
theorem runStages_ends (Inv : List Stage → Node → Prop) (stuck : Prop) (ss : List Stage)
    (each : ∀ s ∈ ss, ∀ rest n r, Inv (s :: rest) n →
      (s.transformation.visit.run o n).Yields r (fun k _ => (∀ m, k = some m → Inv rest m) ∧
        (stuck ∨ ∃ m, k = some m ∧ m.kind = .document)) stuck) :
    ∀ n c log, Inv ss n → Ends ((runStages o n c ss).run log) log (Inv []) stuck := by
  induction ss with
  | nil =>
      intro n c log inv
      refine ⟨?_, ?_⟩
      · rintro m ⟨⟩
        exact ⟨inv, .refl _⟩
      · rintro e ⟨⟩
  | cons s ss ih =>
      intro n c log inv
      have visited := each s List.mem_cons_self ss n ⟨c, log ++ [announcement s]⟩ inv
      have quiet : AddsDebug log (log ++ [announcement s]) := .append_debug _ _ _ _
      have grown := quiet.trans visited.quiet
      rw [runStages_cons]
      rcases hx : (s.transformation.visit.run o n).outcome ⟨c, log ++ [announcement s]⟩ with ⟨f | k, r⟩
      · refine ⟨?_, fun _ _ => visited.error f r hx⟩
        rintro m ⟨⟩
      · rw [hx] at grown
        obtain ⟨next, given⟩ := visited.ok k r hx
        cases k with
        | none =>
            refine ⟨?_, fun _ _ => given.elim id ?_⟩
            · rintro m ⟨⟩
            · rintro ⟨m, ⟨⟩, -⟩
        | some m =>
            by_cases document : (m.kind == .document) = true
            · simp only [document, if_true]
              have rest := ih (fun t ht => each t (List.mem_cons_of_mem _ ht)) m r.context r.log
                (next m rfl)
              refine ⟨?_, rest.error⟩
              intro m' hm'
              obtain ⟨good, more⟩ := rest.ok m' hm'
              exact ⟨good, grown.trans more⟩
            · simp only [document]
              refine ⟨?_, fun _ _ => given.elim id ?_⟩
              · rintro m ⟨⟩
              · rintro ⟨_, ⟨⟩, isDocument⟩
                exact (document (by simp [isDocument])).elim

theorem warnLeftover_run (slug : String) (h : m.dialectNodes = []) :
    (warnLeftover m slug).run log = ((), log) := by
  unfold warnLeftover
  rw [h]
  rfl

/-- What follows the run of the stages. -/
def afterStages : Except Error Node × Context → Logged (Except Error Node × Context)
  | (.ok m, c) => do
    warnLeftover m c.slug
    return (.ok m, c)
  | r => return r

theorem transform_run (reg : Registry) :
    (transform reg o n c).run log =
      match (runStages o n c (reg.enabledStages o)).run (log ++ [⟨debug, logger,
        "Applying " ++ toString (reg.enabledStages o).length ++ " stage(s) to " ++ c.slug, none⟩]) with
      | ((.ok m, c), log) => ((.ok m, c), ((warnLeftover m c.slug).run log).2)
      | ((.error e, c), log) => ((.error e, c), log) := by
  have announced : (transform reg o n c).run log =
      ((runStages o n c (reg.enabledStages o)).run (log ++ [⟨debug, logger,
        "Applying " ++ toString (reg.enabledStages o).length ++ " stage(s) to " ++ c.slug, none⟩]) >>=
        fun p => (afterStages p.1).run p.2 : Id _) := rfl
  rw [announced]
  generalize StateT.run (runStages o n c (reg.enabledStages o)) _ = result
  rcases result with ⟨⟨e | m, c⟩, log⟩ <;> rfl

/-- Apart from the log, the pipeline gives what the run of its stages gives. -/
theorem transform_result (reg : Registry) (o : Options) (n : Node) (c : Context) (log : Records) :
    ∃ started, ((transform reg o n c).run log).1 =
      ((runStages o n c (reg.enabledStages o)).run started).1 := by
  rw [transform_run]
  generalize log ++ _ = started
  refine ⟨started, ?_⟩
  rcases (runStages o n c (reg.enabledStages o)).run started with
    ⟨⟨e | m, c'⟩, log'⟩ <;> rfl

/-- The rule for the whole pipeline. The log of a document without dialect nodes has grown by debug
records alone. -/
theorem transform_ends (Inv : List Stage → Node → Prop) (stuck : Prop) (reg : Registry)
    (each : ∀ s ∈ reg.enabledStages o, ∀ rest n r, Inv (s :: rest) n →
      (s.transformation.visit.run o n).Yields r (fun k _ => (∀ m, k = some m → Inv rest m) ∧
        (stuck ∨ ∃ m, k = some m ∧ m.kind = .document)) stuck)
    (inv : Inv (reg.enabledStages o) n) (c : Context) (log : Records) :
    (∀ m c' log', (transform reg o n c).run log = ((.ok m, c'), log') →
      Inv [] m ∧ (m.dialectNodes = [] → AddsDebug log log')) ∧
    (∀ e c' log', (transform reg o n c).run log = ((.error e, c'), log') → stuck) := by
  rw [transform_run]
  have ends := runStages_ends Inv stuck _ each n c (log ++ [⟨debug, logger,
    "Applying " ++ toString (reg.enabledStages o).length ++ " stage(s) to " ++ c.slug, none⟩]) inv
  generalize StateT.run (runStages o n c (reg.enabledStages o)) _ = result at ends ⊢
  rcases result with ⟨⟨e | m, c₁⟩, log₁⟩
  · refine ⟨?_, fun _ _ _ _ => ends.error e rfl⟩
    rintro m c' log' ⟨⟩
  · refine ⟨?_, ?_⟩
    · rintro m' c' log' ⟨⟩
      obtain ⟨good, grown⟩ := ends.ok m rfl
      refine ⟨good, fun none => ?_⟩
      rw [warnLeftover_run c₁.slug none]
      exact (AddsDebug.append_debug _ _ _ _).trans grown
    · rintro e c' log' ⟨⟩

/-- The built-in stages are registered in the order of their priorities. -/
theorem enabledStages_builtin (o : Options) :
    Registry.builtin.enabledStages o = Stage.builtin.filter (·.isEnabled o) := by
  refine List.mergeSort_of_pairwise (List.Pairwise.filter _ ?_)
  simp only [Registry.builtin, decide_eq_true_eq]
  decide

theorem mem_enabledStages_builtin {s : Stage} :
    s ∈ Registry.builtin.enabledStages o ↔ s ∈ Stage.builtin ∧ s.isEnabled o = true := by
  rw [enabledStages_builtin, List.mem_filter]

end NoteMarkup.Pipeline
