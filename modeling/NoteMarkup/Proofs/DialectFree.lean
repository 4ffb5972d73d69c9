import NoteMarkup.Proofs.PipelineRun
import NoteMarkup.Proofs.Visits

/-! The stages of the dialect leave none of their nodes behind, and no other stage brings one back.
So a document that has passed all three holds no node of the dialect at any depth, and the pipeline
has nothing to warn of. -/

namespace NoteMarkup

/-- The flag of the stage that replaces the nodes of a kind of the dialect. -/
def Kind.flag? : Kind → Option Flag
  | .wikiLink => some .wikilinks
  | .highlight => some .highlight
  | .tag => some .parseTags
  | _ => none

theorem Kind.ne_of_dialect {k l : Kind} (h : l.isDialect = true) (h' : k.isDialect = false) :
    k ≠ l := by
  rintro rfl
  rw [h] at h'
  cases h'

theorem Kind.eq_of_flag? {k l : Kind} (hk : k.isDialect = true) (hl : l.isDialect = true)
    (h : l.flag? = k.flag?) : k = l := by
  cases k <;> cases hk <;> cases l <;> cases hl <;> first | rfl | cases h

namespace Node

variable {k : Kind} {n m : Node}

/-- No node of the tree is of the kind. -/
def Free (k : Kind) (n : Node) : Prop := All (fun m => m.kind ≠ k) n

theorem free_iff : Free k n ↔ n.kind ≠ k ∧ ∀ c ∈ n.children, Free k c := all_iff

@[simp] theorem free_withInfo {info : Record} : Free k (n.withInfo info) ↔ Free k n := by
  rw [free_iff, free_iff (n := n), kind_withInfo, children_withInfo]

@[simp] theorem free_styled {as new : Record} : Free k (n.styled as new) ↔ Free k n :=
  free_withInfo

theorem free_leaf {l : Leaf} {info : Record} : Free k (.leaf l info) ↔ l.kind ≠ k := all_leaf

theorem free_branch {c : Container} {cs : List Node} {info : Record} :
    Free k (.branch c cs info) ↔ c.kind ≠ k ∧ ∀ n ∈ cs, Free k n := all_branch

theorem free_ofText (h : k.isDialect = true) (t : String) : Free k (.ofText t) :=
  free_leaf.mpr (Kind.ne_of_dialect h rfl)

theorem free_generatedInline (h : k.isDialect = true) (t : String) : Free k (.generatedInline t) :=
  free_leaf.mpr (Kind.ne_of_dialect h rfl)

theorem dialectNodes_eq_nil (h : ∀ k, k.isDialect = true → Free k n) : n.dialectNodes = [] := by
  refine List.filter_eq_nil_iff.mpr fun m hm dialect => ?_
  exact h m.kind dialect m hm rfl

end Node

namespace Stage

open Node

variable {k : Kind} {n m : Node} {o : Options} {inLink : Bool} {r : Run}

theorem Links.Replacement.free (h : Replacement m) (hk : k.isDialect = true) : Free k m := by
  cases h with
  | link res =>
      unfold linkNode
      split
      · exact free_generatedInline hk _
      · exact free_branch.mpr ⟨Kind.ne_of_dialect hk rfl, by simp [free_ofText hk]⟩
  | image url d => exact free_styled.mpr (free_leaf.mpr (Kind.ne_of_dialect hk rfl))
  | _ => exact free_leaf.mpr (Kind.ne_of_dialect hk rfl)

theorem Links.Rewrites.free (h : Rewrites n m) (hk : k.isDialect = true)
    (self : n.kind = k → k = .wikiLink) (below : ∀ c ∈ n.children, Free k c) : Free k m := by
  cases h with
  | keep other => exact free_iff.mpr ⟨fun same => other (same.trans (self same)), below⟩
  | reference _ replaced => exact replaced.free hk

theorem Highlights.Rewrites.free (h : Rewrites n m) (hk : k.isDialect = true)
    (self : n.kind = k → k = .highlight) (below : ∀ c ∈ n.children, Free k c) : Free k m := by
  cases h with
  | keep other => exact free_iff.mpr ⟨fun same => other (same.trans (self same)), below⟩
  | span => exact free_generatedInline hk _

theorem Tags.Rewrites.free (h : Rewrites n m) (hk : k.isDialect = true)
    (self : n.kind = k → k = .tag) (below : ∀ c ∈ n.children, Free k c) : Free k m := by
  cases h with
  | keep other => exact free_iff.mpr ⟨fun same => other (same.trans (self same)), below⟩
  | text => exact free_ofText hk _
  | link context => exact free_branch.mpr ⟨Kind.ne_of_dialect hk rfl, by simp [free_ofText hk]⟩

theorem RawMarkup.Rewrites.free (h : Rewrites n m) (free : Free k n) : Free k m := by
  cases h with
  | keep => exact free
  | block new | inline new =>
      have self := free_leaf.mp free
      exact free_leaf.mpr self

theorem Media.Rewrites.free {markup : String → Option String} (h : Rewrites markup n m)
    (hk : k.isDialect = true) (free : Free k n) : Free k m := by
  cases h with
  | keep => exact free
  | embed => exact free_generatedInline hk _

theorem Media.AppLinked.free (h : AppLinked n m) (free : Free k n) : Free k m := by
  cases h with
  | keep => exact free
  | mark => exact free_styled.mpr free

theorem Callouts.Rewrites.free (h : Rewrites n m) (hk : k.isDialect = true) (free : Free k n) :
    Free k m := by
  cases h with
  | keep => exact free
  | @rebuild cs info opening title as _ opens =>
      obtain ⟨quote, below⟩ := free_branch.mp free
      refine free_styled.mpr (free_branch.mpr ⟨quote, fun m hm => ?_⟩)
      obtain ⟨content, textInfo, firstInfo, rfl⟩ := opening?_eq_some opens
      rcases mem_body hm with rfl | rfl | rfl
      · exact free_leaf.mpr (Kind.ne_of_dialect hk rfl)
      · exact free_branch.mpr ⟨Kind.ne_of_dialect hk rfl, by simp [free_ofText hk]⟩
      · exact free_branch.mpr ⟨quote, fun m hm => below m (List.mem_cons_of_mem _ hm)⟩

theorem Blocks.DiagramMarked.free (h : DiagramMarked n m) (free : Free k n) : Free k m := by
  cases h with
  | keep => exact free
  | mark => exact free_styled.mpr free

theorem Blocks.TaskMarked.free (h : TaskMarked n m) (free : Free k n) : Free k m := by
  cases h with
  | keep => exact free
  | mark => exact free_styled.mpr (free_branch.mpr (free_branch.mp free))

theorem Blocks.Touched.free (h : Touched n m) (free : Free k n) : Free k m := by
  induction h with
  | refl => exact free
  | unmarked _ ih => exact free_withInfo.mpr ih
  | named _ _ _ ih => exact free_styled.mpr ih

theorem Blocks.Marked.free (h : Marked n m) (hk : k.isDialect = true) (free : Free k n) :
    Free k m := by
  -- what is handed on among the children of a node is free of the kind
  have handed {cs out : List Node} (below : ∀ n ∈ cs, Free k n)
      (touched : ∀ m ∈ out, ∃ n ∈ cs, Touched n m) : ∀ m ∈ out, Free k m := by
    intro m hm
    obtain ⟨n, hn, h⟩ := touched m hm
    exact h.free (below n hn)
  cases h with
  | keep => exact free
  | deferred id => exact free_branch.mpr (free_branch.mp free)
  | paragraph id texts =>
      obtain ⟨self, below⟩ := free_branch.mp free
      refine free_styled.mpr (free_branch.mpr ⟨self, fun m hm => ?_⟩)
      rcases List.mem_append.mp hm with front | last
      · exact below m (List.dropLast_subset _ front)
      · obtain ⟨t, rfl⟩ := texts m last
        exact free_ofText hk t
  | handedOn _ touched =>
      obtain ⟨self, below⟩ := free_branch.mp free
      exact free_branch.mpr ⟨self, handed below touched⟩
  | adopted touched =>
      obtain ⟨self, below⟩ := free_branch.mp free
      obtain ⟨first, rest⟩ := List.forall_mem_cons.mp (handed below touched)
      refine free_styled.mpr (free_branch.mpr ⟨self, List.forall_mem_cons.mpr ⟨?_, rest⟩⟩)
      exact free_branch.mpr (free_branch.mp first)

/-- What a visit of a built-in stage gives is free of a kind of the dialect, if the children of the
node are and the stage is the one for the kind or the node is of another kind. -/
theorem builtin_visit_free {s : Stage} (hs : s ∈ builtin) (hk : k.isDialect = true) :
    Visited (s.transformation.visit o inLink n) r (fun m => (n.kind = k → s.option = k.flag?) →
      (∀ c ∈ n.children, Free k c) → Free k m) True := by
  -- away from the three stages of the dialect the node itself is free of the kind
  have free (other : s.option ≠ k.flag?) (self : n.kind = k → s.option = k.flag?)
      (below : ∀ c ∈ n.children, Free k c) : Free k n :=
    free_iff.mpr ⟨fun same => other (self same), below⟩
  simp only [builtin, List.mem_cons, List.not_mem_nil, or_false] at hs
  rcases hs with rfl | rfl | rfl | rfl | rfl | rfl | rfl | rfl | rfl | rfl | rfl | rfl
  case inl =>
    exact Links.visit_yields.imp fun m h self below =>
      h.free hk (fun same => Kind.eq_of_flag? hk rfl (self same)) below
  case inr.inl =>
    exact Highlights.visit_yields.imp fun m h self below =>
      h.free hk (fun same => Kind.eq_of_flag? hk rfl (self same)) below
  case inr.inr.inl =>
    exact Tags.visit_yields.imp fun m h self below =>
      h.free hk (fun same => Kind.eq_of_flag? hk rfl (self same)) below
  all_goals replace free := free (by cases k <;> cases hk <;> nofun)
  · exact RawMarkup.visit_yields.imp fun m h self below => h.free (free self below)
  · exact Media.visitVideo_yields.imp fun m h self below => h.free hk (free self below)
  · exact (Callouts.visit_yields (fun _ _ _ _ _ _ => trivial) fun _ => trivial).imp
      fun m h self below => h.free hk (free self below)
  · exact (Blocks.visitDiagram_yields fun _ => trivial).imp
      fun m h self below => h.free (free self below)
  · exact (Blocks.visitMarker_yields (fun _ => trivial) (fun _ => trivial)
      (fun _ _ _ _ _ _ => trivial) fun _ _ _ _ _ _ _ _ _ => trivial).imp
      fun m h self below => h.free hk (free self below)
  · exact Media.visitPlayer_yields.imp fun m h self below => h.free hk (free self below)
  · exact Media.visitStatus_yields.imp fun m h self below => h.free hk (free self below)
  · exact (Blocks.visitTask_yields fun _ => trivial).imp
      fun m h self below => h.free (free self below)
  · exact (Media.visitAppLink_yields (fun _ => trivial) fun _ _ _ _ => trivial).imp
      fun m h self below => h.free (free self below)

/-- Over a whole tree: a built-in stage clears the tree of its own kind, and keeps it free of every
other kind that it was free of. -/
theorem builtin_run_free {s : Stage} (hs : s ∈ builtin) (hk : k.isDialect = true) :
    Visited (s.transformation.visit.run o n) r
      (fun m => s.option = k.flag? ∨ Free k n → Free k m) True := by
  let R (n m : Node) : Prop := s.option = k.flag? ∨ Free k n → Free k m
  have visit : ∀ inLink n n' r, True → Renewed R n n' →
      Visited (s.transformation.visit o inLink n') r (R n) True := by
    intro inLink n n' r _ renewed
    refine (builtin_visit_free hs hk).imp fun m h free => h ?_ ?_
    · intro same
      refine free.elim id fun free => ?_
      exact (free.self (renewed.kind.symm.trans same)).elim
    · intro c hc
      obtain ⟨b, hb, related⟩ := renewed.exists_child hc
      exact related (free.imp id fun free => free.child hb)
  exact transform_yields visit n false r fun _ _ => trivial

end Stage

namespace Pipeline

open Node

variable {k : Kind} {n m : Node} {o : Options} {c c' : Context} {log log' : Log.Records}

theorem transform_free (hk : k.isDialect = true) {f : Flag} (flag : k.flag? = some f)
    (on : o.enabled f = true)
    (h : (transform Registry.builtin o n c).run log = ((.ok m, c'), log')) : Free k m := by
  -- as long as the tree is not free of the kind, the stage for the kind is still to come
  let Inv (ss : List Stage) (n : Node) : Prop := (∃ s ∈ ss, s.option = k.flag?) ∨ Free k n
  have inv : Inv (Registry.builtin.enabledStages o) n := by
    have own : ∃ s ∈ Stage.builtin, s.option = k.flag? := by
      cases k <;> cases hk
      · exact ⟨Stage.wikilinks, by simp [Stage.builtin], rfl⟩
      · exact ⟨Stage.highlights, by simp [Stage.builtin], rfl⟩
      · exact ⟨Stage.tagLinks, by simp [Stage.builtin], rfl⟩
    obtain ⟨s, builtin, own⟩ := own
    refine .inl ⟨s, mem_enabledStages_builtin.mpr ⟨builtin, ?_⟩, own⟩
    rw [Stage.isEnabled, own, flag]
    exact on
  have ends := transform_ends Inv True Registry.builtin ?_ inv c log
  · exact ((ends.1 m c' log' h).1).elim (by simp) id
  · intro s hs rest n r inv
    refine (Stage.builtin_run_free (mem_enabledStages_builtin.mp hs).1 hk).mono ?_
    rintro _ _ ⟨m, rfl, free⟩
    refine ⟨?_, .inl trivial⟩
    rintro _ ⟨⟩
    rcases inv with ⟨t, later, own⟩ | before
    · rcases List.mem_cons.mp later with rfl | later
      · exact .inr (free (.inl own))
      · exact .inl ⟨t, later, own⟩
    · exact .inr (free (.inr before))

/-- A document that the pipeline gives holds no reference, no highlight and no tag at any depth if
the flags of their stages are on. No stage brings a node of the dialect into a tree that is free of
its kind, and with all three flags on nothing but debug records are written. -/
theorem transform_leaves_no_dialect (o : Options) (n : Node) (c : Context) (log : Log.Records) :
    (∀ m c' log', (transform Registry.builtin o n c).run log = ((.ok m, c'), log') →
      (o.enabled .wikilinks = true → ∀ d ∈ m.nodes, d.kind ≠ .wikiLink) ∧
      (o.enabled .highlight = true → ∀ d ∈ m.nodes, d.kind ≠ .highlight) ∧
      (o.enabled .parseTags = true → ∀ d ∈ m.nodes, d.kind ≠ .tag) ∧
      (o.enabled .wikilinks = true → o.enabled .highlight = true → o.enabled .parseTags = true →
        ∃ new, log' = log ++ new ∧ ∀ e ∈ new, e.level = Log.debug)) ∧
    ∀ s ∈ Stage.builtin, ∀ k : Kind, k.isDialect = true → ∀ t m r r',
      (∀ d ∈ t.nodes, d.kind ≠ k) →
      (s.transformation.visit.run o t).outcome r = (.ok (some m), r') →
      ∀ d ∈ m.nodes, d.kind ≠ k := by
  refine ⟨?_, ?_⟩
  · intro m c' log' h
    have wikiLink := fun on => transform_free (k := .wikiLink) rfl rfl on h
    have highlight := fun on => transform_free (k := .highlight) rfl rfl on h
    have tag := fun on => transform_free (k := .tag) rfl rfl on h
    refine ⟨wikiLink, highlight, tag, fun on on' on'' => ?_⟩
    have none : m.dialectNodes = [] := by
      refine dialectNodes_eq_nil fun k hk => ?_
      cases k <;> cases hk
      · exact wikiLink on
      · exact highlight on'
      · exact tag on''
    have ends := transform_ends (n := n) (o := o) (fun _ _ => True) True Registry.builtin
      ?_ trivial c log
    · exact (ends.1 m c' log' h).2 none
    · intro s hs rest n r _
      exact (Stage.builtin_run_free (mem_enabledStages_builtin.mp hs).1 (k := .tag) rfl).mono
        fun _ _ _ => ⟨fun _ _ => trivial, .inl trivial⟩
  · intro s hs k hk t m r r' free h
    obtain ⟨_, ⟨⟩, kept⟩ := (Stage.builtin_run_free hs hk).ok _ _ h
    exact kept (.inr free)

/-- A table whose header cell holds a highlight, a tag that is a number, and a reference. -/
def dialectTable : Node :=
  .table (some (.branch (.tableRow true) [.branch (.tableCell none)
    [.branch .highlight [Node.ofText "a"] [], .leaf (.tag "12") [],
     .leaf (.wikiLink ⟨"https://a", none, none, false⟩) []] []] [])) [] [] []

/-- Only the stages of the dialect run. -/
def dialectOptions : Options := ⟨fun f => f == .wikilinks || f == .highlight || f == .parseTags⟩

theorem dialectTable_leaves_no_dialect :
    (∃ m c log, (transform Registry.builtin dialectOptions (.branch .document [dialectTable] [])
        (Context.new "n" none)).run [] = ((.ok m, c), log) ∧
      (∀ d ∈ m.nodes, d.kind ≠ .wikiLink) ∧ (∀ d ∈ m.nodes, d.kind ≠ .highlight) ∧
      (∀ d ∈ m.nodes, d.kind ≠ .tag) ∧ ∀ e ∈ log, e.level = Log.debug) ∧
    ∃ m r, (Stage.tagLinks.transformation.visit.run dialectOptions (.leaf (.tag "12") [])).outcome
        ⟨Context.new "n" none, []⟩ = (.ok (some m), r) ∧ ∀ d ∈ m.nodes, d.kind ≠ .highlight := by
  have theorems := transform_leaves_no_dialect dialectOptions (.branch .document [dialectTable] [])
    (Context.new "n" none) []
  refine ⟨?_, Node.ofText "#12", ⟨Context.new "n" none, []⟩, rfl, ?_⟩
  · obtain ⟨m, c, log, h⟩ : ∃ m c log, (transform Registry.builtin dialectOptions
        (.branch .document [dialectTable] []) (Context.new "n" none)).run [] =
          ((.ok m, c), log) := by
      rw [transform_run, enabledStages_builtin]
      exact ⟨_, _, _, rfl⟩
    obtain ⟨wikiLink, highlight, tag, quiet⟩ := theorems.1 m c log h
    obtain ⟨new, rfl, debug⟩ := quiet rfl rfl rfl
    exact ⟨m, c, _, h, wikiLink rfl, highlight rfl, tag rfl, debug⟩
  · refine theorems.2 Stage.tagLinks (by simp [Stage.builtin]) .highlight rfl
      (.leaf (.tag "12") []) _ ⟨Context.new "n" none, []⟩ ⟨Context.new "n" none, []⟩ ?_ rfl
    decide

end Pipeline

end NoteMarkup
