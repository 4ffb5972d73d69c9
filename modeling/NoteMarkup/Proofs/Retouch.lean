import Mathlib.Data.List.Perm.Basic
import NoteMarkup.Proofs.Attributes
import NoteMarkup.Proofs.PipelineRun
import NoteMarkup.Proofs.Tree

/-! Stages that change single nodes and keep the shape of the tree. Two of them can change places if
their changes to one node can, and then any number of them can run in any order. -/

namespace NoteMarkup

open Node

/-- Notes that there is a diagram, if `found`. -/
def Context.raise (c : Context) (found : Bool) : Context :=
  { c with hasDiagram := found || c.hasDiagram }

theorem Context.raise_raise (c : Context) (a b : Bool) : (c.raise a).raise b = c.raise (b || a) := by
  simp only [raise, Bool.or_assoc]

/-- A change to single nodes. It can put another leaf in the place of a leaf, and it can change the
information on a container. -/
structure Retouch where
  leaf : Leaf × Record → Leaf × Record
  branch : Container → Record → Record
  /-- The leaves that are diagrams. -/
  raises : Leaf → Bool

namespace Retouch

variable {t u : Retouch} {n : Node}

def node (t : Retouch) : Node → Node
  | .leaf l info => .leaf (t.leaf (l, info)).1 (t.leaf (l, info)).2
  | .branch c cs info => .branch c cs (t.branch c info)
  | n => n

mutual

def tree (t : Retouch) : Node → Node
  | .leaf l info => .leaf (t.leaf (l, info)).1 (t.leaf (l, info)).2
  | .branch c cs info => .branch c (t.trees cs) (t.branch c info)
  | .table none rows al info => .table none (t.trees rows) al info
  | .table (some header) rows al info => .table (some (t.tree header)) (t.trees rows) al info

def trees (t : Retouch) : List Node → List Node
  | [] => []
  | n :: ns => t.tree n :: t.trees ns

end

def raisesAt (t : Retouch) : Node → Bool
  | .leaf l _ => t.raises l
  | _ => false

def raisesIn (t : Retouch) (n : Node) : Bool := n.nodes.any t.raisesAt

def raisesInAny (t : Retouch) (ns : List Node) : Bool := (nodesOf ns).any t.raisesAt

def apply (t : Retouch) (p : Node × Context) : Node × Context :=
  (t.tree p.1, p.2.raise (t.raisesIn p.1))

def applyAll (ts : List Retouch) (p : Node × Context) : Node × Context :=
  ts.foldl (fun p t => t.apply p) p

@[simp] theorem raisesIn_leaf {l : Leaf} {info : Record} :
    t.raisesIn (.leaf l info) = t.raises l := Bool.or_false _

@[simp] theorem raisesIn_branch {c : Container} {cs : List Node} {info : Record} :
    t.raisesIn (.branch c cs info) = t.raisesInAny cs := rfl

@[simp] theorem raisesIn_table {header : Option Node} {rows : List Node} {al : List (Option String)}
    {info : Record} : t.raisesIn (.table header rows al info) =
      (header.elim false t.raisesIn || t.raisesInAny rows) := by
  cases header with
  | none => rfl
  | some header => exact List.any_append

@[simp] theorem raisesInAny_cons {ns : List Node} :
    t.raisesInAny (n :: ns) = (t.raisesIn n || t.raisesInAny ns) := List.any_append

theorem trees_eq_map (t : Retouch) (ns : List Node) : t.trees ns = ns.map t.tree := by
  induction ns with
  | nil => rfl
  | cons n ns ih => rw [trees, ih, List.map_cons]

theorem tree_document (t : Retouch) (h : n.kind = .document) : (t.tree n).kind = .document := by
  cases n with
  | leaf l info => cases l <;> cases h
  | branch c cs info => exact h
  | table header rows al info => cases h

/-- What the two changes do to a node does not depend on which comes first, and neither makes or
hides a diagram. -/
structure Independent (t u : Retouch) : Prop where
  leaf : ∀ p, u.leaf (t.leaf p) = t.leaf (u.leaf p)
  branch : ∀ c info, u.branch c (t.branch c info) = t.branch c (u.branch c info)
  kept : ∀ p, u.raises (t.leaf p).1 = u.raises p.1
  kept' : ∀ p, t.raises (u.leaf p).1 = t.raises p.1

theorem Independent.symm (h : Independent t u) : Independent u t :=
  ⟨fun p => (h.leaf p).symm, fun c info => (h.branch c info).symm, h.kept', h.kept⟩

theorem Independent.tree_tree (h : Independent t u) (n : Node) :
    u.tree (t.tree n) = t.tree (u.tree n) := by
  have list : ∀ ns : List Node, (∀ n ∈ ns, u.tree (t.tree n) = t.tree (u.tree n)) →
      u.trees (t.trees ns) = t.trees (u.trees ns) := by
    intro ns each
    simp only [trees_eq_map, List.map_map]
    exact List.map_congr_left each
  induction n using induct with
  | leaf l info => exact congrArg (fun p => Node.leaf p.1 p.2) (h.leaf (l, info))
  | branch c cs info ih => simp only [tree, h.branch, list cs ih]
  | table header rows al info hheader hrows =>
      cases header with
      | none => simp only [tree, list rows hrows]
      | some header => simp only [tree, list rows hrows, hheader header rfl]

theorem raisesIn_tree (kept : ∀ p, u.raises (t.leaf p).1 = u.raises p.1) (n : Node) :
    u.raisesIn (t.tree n) = u.raisesIn n := by
  have list : ∀ ns : List Node, (∀ n ∈ ns, u.raisesIn (t.tree n) = u.raisesIn n) →
      u.raisesInAny (t.trees ns) = u.raisesInAny ns := by
    intro ns each
    induction ns with
    | nil => rfl
    | cons n ns ih =>
        obtain ⟨first, later⟩ := List.forall_mem_cons.mp each
        rw [trees, raisesInAny_cons, raisesInAny_cons, first, ih later]
  induction n using induct with
  | leaf l info =>
      rw [tree, raisesIn_leaf, raisesIn_leaf]
      exact kept (l, info)
  | branch c cs info ih => rw [tree, raisesIn_branch, raisesIn_branch, list cs ih]
  | table header rows al info hheader hrows =>
      cases header with
      | none => rw [tree, raisesIn_table, raisesIn_table, list rows hrows]
      | some header =>
          rw [tree, raisesIn_table, raisesIn_table, list rows hrows]
          exact congrArg (· || _) (hheader header rfl)

theorem Independent.apply_apply (h : Independent t u) (p : Node × Context) :
    u.apply (t.apply p) = t.apply (u.apply p) := by
  simp only [apply, Context.raise_raise, h.tree_tree, raisesIn_tree h.kept, raisesIn_tree h.kept']
  rw [Bool.or_comm]

/-- The stage does the change to every node whose information is `Classed`, and what it leaves is
`Classed`. -/
structure DoneBy (t : Retouch) (s : Stage) : Prop where
  visit : ∀ o inLink n c log, Classed n.info → ∃ log',
    (s.transformation.visit o inLink n).outcome ⟨c, log⟩ =
      (.ok (some (t.node n)), ⟨c.raise (t.raisesAt n), log'⟩)
  leaf : ∀ p, Classed p.2 → Classed (t.leaf p).2
  branch : ∀ c info, Classed info → Classed (t.branch c info)

def ClassedTree (n : Node) : Prop := All (fun m => Classed m.info) n

theorem DoneBy.classed {s : Stage} (h : t.DoneBy s) (n : Node) :
    ClassedTree n → ClassedTree (t.tree n) := by
  unfold ClassedTree
  induction n using induct with
  | leaf l info =>
      intro classed
      exact all_leaf.mpr (h.leaf (l, info) classed.self)
  | branch c cs info ih =>
      intro classed
      obtain ⟨self, below⟩ := all_branch.mp classed
      refine all_branch.mpr ⟨h.branch c info self, ?_⟩
      rw [trees_eq_map]
      exact List.forall_mem_map.mpr fun n hn => ih n hn (below n hn)
  | table header rows al info hheader hrows =>
      intro classed
      obtain ⟨self, ofHeader, ofRows⟩ := all_table.mp classed
      have rowsKept : ∀ n ∈ t.trees rows, All (fun m => Classed m.info) n := by
        rw [trees_eq_map]
        exact List.forall_mem_map.mpr fun n hn => hrows n hn (ofRows n hn)
      cases header with
      | none => exact all_table.mpr ⟨self, nofun, rowsKept⟩
      | some header =>
          refine all_table.mpr ⟨self, ?_, rowsKept⟩
          rintro _ ⟨⟩
          exact hheader header rfl (ofHeader header rfl)

section Runs

variable {f : Bool → Node → StageM (Option Node)} {P : Node → Prop} {ns : List Node}

/-- What a transformation does to each tree of a list it does to the list. -/
theorem runAll_of_each (each : ∀ n ∈ ns, ∀ inLink c log, ∃ log',
      (n.transform f inLink).outcome ⟨c, log⟩ =
        (.ok (some (t.tree n)), ⟨c.raise (t.raisesIn n), log'⟩)) :
    ∀ inLink c log, ∃ log', (transformAll f inLink ns).outcome ⟨c, log⟩ =
      (.ok (t.trees ns), ⟨c.raise (t.raisesInAny ns), log'⟩) := by
  intro inLink
  induction ns with
  | nil => exact fun c log => ⟨log, rfl⟩
  | cons n ns ih =>
      intro c log
      obtain ⟨first, later⟩ := List.forall_mem_cons.mp each
      obtain ⟨log₁, visited⟩ := first inLink c log
      obtain ⟨log₂, rest⟩ := ih later (c.raise (t.raisesIn n)) log₁
      refine ⟨log₂, ?_⟩
      rw [transformAll, StageM.outcome_bind_ok visited, StageM.outcome_bind_ok rest,
        Context.raise_raise, raisesInAny_cons, Bool.or_comm]
      rfl

/-- `P` says of a node, whatever its children are, that the visit does the change to it. -/
structure DoneWhere (t : Retouch) (P : Node → Prop) (f : Bool → Node → StageM (Option Node)) : Prop where
  visit : ∀ inLink n c log, P n → ∃ log', (f inLink n).outcome ⟨c, log⟩ =
    (.ok (some (t.node n)), ⟨c.raise (t.raisesAt n), log'⟩)
  branch : ∀ c cs cs' info, P (.branch c cs info) → P (.branch c cs' info)
  table : ∀ header header' rows rows' al info,
    P (.table header rows al info) → P (.table header' rows' al info)

theorem DoneWhere.run (h : t.DoneWhere P f) (n : Node) : ∀ inLink c log, All P n → ∃ log',
    (n.transform f inLink).outcome ⟨c, log⟩ =
      (.ok (some (t.tree n)), ⟨c.raise (t.raisesIn n), log'⟩) := by
  induction n using induct with
  | leaf l info =>
      intro inLink c log all
      rw [raisesIn_leaf]
      exact h.visit inLink (.leaf l info) c log all.self
  | branch k cs info ih =>
      intro inLink c log all
      obtain ⟨self, below⟩ := all_branch.mp all
      obtain ⟨log₁, children⟩ := runAll_of_each (fun n hn inLink c log =>
        ih n hn inLink c log (below n hn)) (inLink || k.isLink) c log
      rw [transform, StageM.outcome_bind_ok children, raisesIn_branch]
      exact h.visit inLink (.branch k (t.trees cs) info) _ log₁ (h.branch _ _ _ _ self)
  | table header rows al info hheader hrows =>
      intro inLink c log all
      obtain ⟨self, ofHeader, ofRows⟩ := all_table.mp all
      obtain ⟨log₁, body⟩ := runAll_of_each (fun n hn inLink c log =>
        hrows n hn inLink c log (ofRows n hn)) inLink c log
      rw [raisesIn_table]
      cases header with
      | none =>
          rw [transform, StageM.outcome_bind_ok body]
          exact h.visit inLink (.table none (t.trees rows) al info) _ log₁ (h.table _ _ _ _ _ _ self)
      | some header =>
          obtain ⟨log₂, head⟩ :=
            hheader header rfl inLink (c.raise (t.raisesInAny rows)) log₁ (ofHeader header rfl)
          rw [transform, StageM.outcome_bind_ok body, StageM.outcome_bind_ok head,
            Context.raise_raise]
          exact h.visit inLink (.table (some (t.tree header)) (t.trees rows) al info) _ log₂
            (h.table _ _ _ _ _ _ self)

/-- The step fails, having noted that there is a diagram. -/
def Stops {α : Type} (x : StageM α) : Prop :=
  ∀ c log, ∃ e log', x.outcome ⟨c, log⟩ = (.error e, ⟨c.raise true, log'⟩)

theorem Stops.bind {α β : Type} {x : StageM α} {k : α → StageM β} (h : Stops x) : Stops (x >>= k) := by
  intro c log
  obtain ⟨e, log', stopped⟩ := h c log
  exact ⟨e, log', StageM.outcome_bind_error stopped⟩

theorem Stops.after {α β : Type} {x : StageM α} {k : α → StageM β} {a : α} {found : Bool}
    (done : ∀ c log, ∃ log', x.outcome ⟨c, log⟩ = (.ok a, ⟨c.raise found, log'⟩)) (h : Stops (k a)) :
    Stops (x >>= k) := by
  intro c log
  obtain ⟨log₁, ok⟩ := done c log
  obtain ⟨e, log₂, stopped⟩ := h (c.raise found) log₁
  refine ⟨e, log₂, ?_⟩
  rw [StageM.outcome_bind_ok ok, stopped, Context.raise_raise, Bool.true_or]

/-- Of the trees of a list, those before the first flaw are done. -/
theorem DoneWhere.stopsAll (h : t.DoneWhere P f)
    (each : ∀ n ∈ ns, ∀ inLink, ¬All P n → Stops (n.transform f inLink)) (flaw : ¬∀ n ∈ ns, All P n)
    (inLink : Bool) : Stops (transformAll f inLink ns) := by
  induction ns with
  | nil => exact (flaw nofun).elim
  | cons n ns ih =>
      obtain ⟨first, later⟩ := List.forall_mem_cons.mp each
      rw [transformAll]
      by_cases good : All P n
      · have rest : ¬∀ n ∈ ns, All P n := fun all => flaw (List.forall_mem_cons.mpr ⟨good, all⟩)
        exact .after (h.run n inLink · · good) (ih later rest).bind
      · exact (first inLink good).bind

/-- If the visit fails at every other node, the transformation fails at the first of them. -/
theorem DoneWhere.stops (h : t.DoneWhere P f) (stop : ∀ inLink n, ¬P n → Stops (f inLink n)) (n : Node) :
    ∀ inLink, ¬All P n → Stops (n.transform f inLink) := by
  have done {ns : List Node} (all : ∀ n ∈ ns, All P n) :=
    runAll_of_each fun n hn inLink c log => h.run n inLink c log (all n hn)
  induction n using induct with
  | leaf l info => exact fun inLink flaw => stop inLink _ (mt all_leaf.mpr flaw)
  | branch k cs info ih =>
      intro inLink flaw
      rw [transform]
      by_cases below : ∀ n ∈ cs, All P n
      · exact .after (done below _) (stop _ _ fun self =>
          flaw (all_branch.mpr ⟨h.branch _ _ _ _ self, below⟩))
      · exact (h.stopsAll ih below _).bind
  | table header rows al info hheader hrows =>
      intro inLink flaw
      by_cases ofRows : ∀ n ∈ rows, All P n
      · cases header with
        | none =>
            have bare : ∀ header, none = some header → All P header := by simp
            rw [transform]
            exact .after (done ofRows _) (stop _ _ fun self =>
              flaw (all_table.mpr ⟨h.table _ _ _ _ _ _ self, bare, ofRows⟩))
        | some header =>
            rw [transform]
            refine .after (done ofRows _) ?_
            by_cases ofHeader : All P header
            · refine .after (h.run header inLink · · ofHeader) (stop _ _ fun self => flaw ?_)
              refine all_table.mpr ⟨h.table _ _ _ _ _ _ self, ?_, ofRows⟩
              rintro _ ⟨⟩
              exact ofHeader
            · exact (hheader header rfl inLink ofHeader).bind
      · cases header <;> rw [transform] <;> exact (h.stopsAll hrows ofRows _).bind

end Runs

theorem DoneBy.run {s : Stage} {o : Options} (h : t.DoneBy s) (n : Node) :
    ∀ inLink c log, ClassedTree n → ∃ log',
      (n.transform (s.transformation.visit o) inLink).outcome ⟨c, log⟩ =
        (.ok (some (t.tree n)), ⟨c.raise (t.raisesIn n), log'⟩) :=
  DoneWhere.run ⟨h.visit o, fun _ _ _ _ => id, fun _ _ _ _ _ _ => id⟩ n

/-- Stages that do changes one after the other. -/
theorem runStages_done {o : Options} {ss : List Stage} {ts : List Retouch}
    (done : List.Forall₂ (fun s t => DoneBy t s) ss ts) :
    ∀ n c log, n.kind = .document → ClassedTree n → ∃ log', (Pipeline.runStages o n c ss).run log =
      ((.ok (applyAll ts (n, c)).1, (applyAll ts (n, c)).2), log') := by
  induction done with
  | nil => exact fun n c log _ _ => ⟨log, rfl⟩
  | @cons s t ss ts first _ ih =>
      intro n c log document classed
      obtain ⟨log₁, visited⟩ := first.run (o := o) n false c (log ++ [Pipeline.announcement s]) classed
      have next := t.tree_document document
      obtain ⟨log₂, rest⟩ := ih (t.tree n) (c.raise (t.raisesIn n)) log₁ next (first.classed n classed)
      refine ⟨log₂, ?_⟩
      rw [Pipeline.runStages_cons, Visit.run, visited]
      dsimp only
      rw [if_pos (beq_iff_eq.mpr next), rest]
      rfl

/-- If any two of the changes are independent, the stages that do them can run in any order. -/
theorem runStages_perm {ss : List Stage} {ts : List Retouch}
    (done : List.Forall₂ (fun s t => DoneBy t s) ss ts)
    (independent : ∀ t ∈ ts, ∀ u ∈ ts, Independent t u) (o : Options) (c : Context)
    (document : n.kind = .document) (classed : ClassedTree n) :
    ∃ m c', ∀ order : List Stage, order.Perm ss → ∀ log, ∃ log',
      (Pipeline.runStages o n c order).run log = ((.ok m, c'), log') := by
  refine ⟨(applyAll ts (n, c)).1, (applyAll ts (n, c)).2, fun order perm log => ?_⟩
  obtain ⟨us, done', perm'⟩ := List.perm_comp_forall₂ perm done
  have same : applyAll ts (n, c) = applyAll us (n, c) :=
    perm'.symm.foldl_eq' (fun t ht u hu p => (independent t ht u hu).apply_apply p) (n, c)
  obtain ⟨log', ran⟩ := runStages_done (o := o) done' n c log document classed
  rw [← same] at ran
  exact ⟨log', ran⟩

end Retouch

end NoteMarkup
