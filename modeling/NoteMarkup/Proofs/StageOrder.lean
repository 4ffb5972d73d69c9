import NoteMarkup.Proofs.PipelineRun
import NoteMarkup.Proofs.RegisteredStages

/-! The order in which stages run. The enabled stages of a registry are sorted by priority, and a tie
keeps the order of the registry. The pipeline hands a document through them in that order: each stage
gets what the one before it has given, and the first that gives no document ends the run. -/

namespace NoteMarkup

section Sorting

variable {α : Type} (key : α → Nat)

theorem key_trans (a b c : α) (hab : decide (key a ≤ key b) = true)
    (hbc : decide (key b ≤ key c) = true) : decide (key a ≤ key c) = true :=
  decide_eq_true (Nat.le_trans (of_decide_eq_true hab) (of_decide_eq_true hbc))

theorem key_total (a b : α) : (decide (key a ≤ key b) || decide (key b ≤ key a)) = true := by
  simpa using Nat.le_total (key a) (key b)

/-- Sorting by a key leaves items of one key as they were. -/
theorem filter_mergeSort_key (k : Nat) (l : List α) :
    ((l.mergeSort fun a b => key a ≤ key b).filter fun a => key a == k) =
      l.filter fun a => key a == k := by
  have alike : (l.filter fun a => key a == k).Pairwise fun a b => decide (key a ≤ key b) = true := by
    refine List.pairwise_of_forall_mem_list ?_
    intro a ha b hb
    have ha := beq_iff_eq.mp (List.mem_filter.mp ha).2
    have hb := beq_iff_eq.mp (List.mem_filter.mp hb).2
    simp [ha, hb]
  have kept := List.sublist_mergeSort (key_trans key) (key_total key) alike List.filter_sublist
  have among := kept.filter fun a => key a == k
  rw [List.filter_filter] at among
  simp only [Bool.and_self] at among
  refine (among.eq_of_length ?_).symm
  exact ((List.mergeSort_perm l _).filter _).length_eq.symm

/-- Sorting by a key keeps the order of items of one key. -/
theorem pairwise_mergeSort_key {R : α → α → Prop} {l : List α} (h : l.Pairwise R) :
    (l.mergeSort fun a b => key a ≤ key b).Pairwise fun a b =>
      key a < key b ∨ key a = key b ∧ R a b := by
  have sorted := List.pairwise_mergeSort (key_trans key) (key_total key) l
  rw [List.pairwise_iff_forall_sublist] at sorted h ⊢
  intro a b pair
  rcases Nat.lt_or_eq_of_le (of_decide_eq_true (sorted pair)) with less | equal
  · exact .inl less
  · have alike := pair.filter fun c => key c == key b
    rw [filter_mergeSort_key] at alike
    simp only [List.filter_cons, equal, beq_self_eq_true, if_true, List.filter_nil] at alike
    exact .inr ⟨equal, h (alike.trans List.filter_sublist)⟩

end Sorting

namespace Registry

variable {r : Registry} {o : Options} {s : Stage}

theorem mem_enabledStages : s ∈ r.enabledStages o ↔ s ∈ r.stages ∧ s.isEnabled o = true := by
  rw [enabledStages, List.mem_mergeSort, List.mem_filter]

/-- A relation between the names of the registry, in their order, decides the ties. -/
theorem pairwise_enabledStages {before : String → String → Prop}
    (h : (namesOf r.stages).Pairwise before) (o : Options) :
    (r.enabledStages o).Pairwise fun s t =>
      s.priority < t.priority ∨ s.priority = t.priority ∧ before s.name t.name := by
  have named : r.stages.Pairwise fun s t => before s.name t.name := List.pairwise_map.mp h
  exact pairwise_mergeSort_key (·.priority) (named.filter _)

end Registry

namespace Pipeline

open Log

/-- A document between two stages, with the note's context and the records so far. -/
structure Passage where
  document : Node
  context : Context
  log : Records

namespace Passage

/-- What a stage does with a document, after it has been announced. -/
def outcome (o : Options) (s : Stage) (p : Passage) : Except Fault (Option Node) × Run :=
  (s.transformation.visit.run o p.document).outcome ⟨p.context, p.log ++ [announcement s]⟩

/-- A stage takes a document and gives the next one. -/
def Through (o : Options) (s : Stage) (p q : Passage) : Prop :=
  p.outcome o s = (.ok (some q.document), ⟨q.context, q.log⟩) ∧ q.document.kind = .document

/-- A stage gives no document. -/
inductive Ends (o : Options) (s : Stage) (p : Passage) : Error → Context → Prop where
  | failed {f : Fault} {r : Run} (h : p.outcome o s = (.error f, r)) :
      Ends o s p (.stageFailed s.name f) r.context
  | dropped {r : Run} (h : p.outcome o s = (.ok none, r)) :
      Ends o s p (.stageResult s.name none) r.context
  | other {m : Node} {r : Run} (h : p.outcome o s = (.ok (some m), r)) (kind : m.kind ≠ .document) :
      Ends o s p (.stageResult s.name (some m.kind)) r.context

end Passage

/-- Stages run one after the other, and the run has a result. -/
inductive InOrder (o : Options) : List Stage → Passage → Except Error Node × Context → Prop where
  | done (p : Passage) : InOrder o [] p (.ok p.document, p.context)
  | next {s : Stage} {ss : List Stage} {p q : Passage} {result : Except Error Node × Context}
      (first : p.Through o s q) (later : InOrder o ss q result) : InOrder o (s :: ss) p result
  | stop {s : Stage} {ss : List Stage} {p : Passage} {e : Error} {c : Context}
      (first : p.Ends o s e c) : InOrder o (s :: ss) p (.error e, c)

theorem runStages_inOrder (o : Options) (ss : List Stage) (p : Passage) :
    InOrder o ss p ((runStages o p.document p.context ss).run p.log).1 := by
  induction ss generalizing p with
  | nil => exact .done p
  | cons s ss ih =>
      rw [runStages_cons]
      rcases given : p.outcome o s with ⟨f | k, r⟩
      · have failed := given
        unfold Passage.outcome at failed
        rw [failed]
        exact .stop (.failed given)
      · have ran := given
        unfold Passage.outcome at ran
        rw [ran]
        cases k with
        | none => exact .stop (.dropped given)
        | some m =>
            dsimp only
            split
            · next document =>
                exact .next (q := ⟨m, r.context, r.log⟩) ⟨given, beq_iff_eq.mp document⟩
                  (ih ⟨m, r.context, r.log⟩)
            · next other => exact .stop (.other given (by simpa using other))

/-- The pipeline runs the enabled stages of a registry in their order. -/
theorem transform_inOrder (reg : Registry) (o : Options) (n : Node) (c : Context) (log : Records) :
    ∃ started, InOrder o (reg.enabledStages o) ⟨n, c, started⟩ ((transform reg o n c).run log).1 := by
  obtain ⟨started, same⟩ := transform_result reg o n c log
  refine ⟨started, ?_⟩
  rw [same]
  exact runStages_inOrder o _ ⟨n, c, started⟩

end Pipeline

end NoteMarkup
