import NoteMarkup.Proofs.WellFormed

/-! The callout stage on a tree that it has been over already. A quote that it has rebuilt keeps the
directive among its information and is left alone. The wrapper around the later blocks of a callout
keeps nothing, so it is taken for a callout if the first of these blocks holds a directive too. -/

namespace NoteMarkup.Stage.Callouts

open Node

variable {n m : Node} {ns ms : List Node}

def text? : Node → Option String
  | .leaf (.text content) _ => some content
  | _ => none

def firstText? : Node → Option String
  | .branch .paragraph (n :: _) _ => text? n
  | _ => none

/-- The directive in the first line of the text that the paragraph starts with. -/
def directive? (n : Node) : Option Callout.Directive :=
  (firstText? n).bind fun content => Callout.parse? (splitLine content).1

/-- The first of the blocks holds a directive. -/
def startsCallout (ns : List Node) : Bool := (ns.head?.bind directive?).isSome

theorem text?_eq_some {content : String} (h : text? n = some content) :
    ∃ info, n = .leaf (.text content) info := by
  unfold text? at h
  split at h
  · cases h
    exact ⟨_, rfl⟩
  · cases h

theorem firstText?_eq_some {content : String} (h : firstText? n = some content) :
    ∃ textInfo siblings info,
      n = .branch .paragraph (.leaf (.text content) textInfo :: siblings) info := by
  unfold firstText? at h
  split at h
  · obtain ⟨textInfo, rfl⟩ := text?_eq_some h
    exact ⟨textInfo, _, _, rfl⟩
  · cases h

theorem isSome_opening? (ns : List Node) : (opening? ns).isSome = startsCallout ns := by
  unfold opening?
  split
  · next content textInfo siblings info rest =>
      simp [startsCallout, directive?, firstText?, text?]
  · next other =>
      cases ns with
      | nil => rfl
      | cons n rest =>
          cases h : firstText? n with
          | none => simp [startsCallout, directive?, h]
          | some content =>
              obtain ⟨textInfo, siblings, info, rfl⟩ := firstText?_eq_some h
              exact (other content textInfo siblings info rest rfl).elim

mutual

/-- A callout in the tree starts with two blocks that hold a directive each. Quotes among the inline
nodes of a title do not count: they go into the rendered title. -/
def reopens : Node → Bool
  | .leaf _ _ => false
  | .branch c cs info =>
    if opens (.branch c cs info) then startsCallout cs.tail || reopensAfter cs else reopensAny cs
  | .table none rows _ _ => reopensAny rows
  | .table (some header) rows _ _ => reopens header || reopensAny rows

def reopensAny : List Node → Bool
  | [] => false
  | n :: ns => reopens n || reopensAny ns

def reopensAfter : List Node → Bool
  | [] => false
  | _ :: ns => reopensAny ns

end

/-- No quote of the tree waits to be rebuilt. -/
def Settled (n : Node) : Prop := All (fun m => opens m = false) n

theorem opens_branch {cs : List Node} {info : Record} :
    opens (.branch .blockQuote cs info) = (!info.has calloutKey && startsCallout cs) := by
  rw [opens, isSome_opening?]

/-- What a run relates a node of the source to: the same text in the places where a directive can
stand, and a tree that is settled unless the source opens a callout twice. -/
structure Rebuilt (n m : Node) : Prop where
  text : text? m = text? n
  firstText : firstText? m = firstText? n
  settled : Settled m ↔ reopens n = false

theorem Rebuilt.startsCallout (h : List.Forall₂ Rebuilt ns ms) : startsCallout ms = startsCallout ns := by
  cases h with
  | nil => rfl
  | cons first _ => simp only [Callouts.startsCallout, List.head?_cons, Option.bind_some, directive?,
      first.firstText]

theorem Rebuilt.settledAll (h : List.Forall₂ Rebuilt ns ms) :
    (∀ m ∈ ms, Settled m) ↔ reopensAny ns = false := by
  induction h with
  | nil => simp [reopensAny]
  | cons first _ ih => rw [List.forall_mem_cons, ih, first.settled, reopensAny, Bool.or_eq_false_iff]

theorem settled_wrapper {rest : List Node} :
    Settled (wrapper rest) ↔ Callouts.startsCallout rest = false ∧ ∀ m ∈ rest, Settled m := by
  unfold Settled wrapper
  rw [all_branch, opens_branch]
  exact Iff.rfl

/-- Of what a callout is made of only the wrapper can wait to be rebuilt. -/
theorem settled_body {opening : Opening} {title : String} :
    (∀ m ∈ body opening title, Settled m) ↔
      Callouts.startsCallout opening.rest = false ∧ ∀ m ∈ opening.rest, Settled m := by
  unfold body
  rw [List.forall_mem_append, List.forall_mem_append]
  have block : ∀ m ∈ [Node.generatedBlock (Callout.titleMarkup ("<p>" ++ title ++ "</p>")
      opening.directive.collapsible)], Settled m :=
    List.forall_mem_singleton.mpr (all_leaf.mpr rfl)
  have paragraph : ∀ m ∈ (if opening.remaining.isEmpty then []
      else [Node.paragraph [Node.ofText opening.remaining]]), Settled m := by
    split
    · nofun
    · refine List.forall_mem_singleton.mpr (all_branch.mpr ⟨rfl, ?_⟩)
      exact List.forall_mem_singleton.mpr (all_leaf.mpr rfl)
  have last : (∀ m ∈ (if opening.rest.isEmpty then [] else [wrapper opening.rest]), Settled m) ↔
      Callouts.startsCallout opening.rest = false ∧ ∀ m ∈ opening.rest, Settled m := by
    cases opening.rest with
    | nil => simp [Callouts.startsCallout]
    | cons n ns => exact List.forall_mem_singleton.trans settled_wrapper
  rw [last]
  exact and_iff_right ⟨block, paragraph⟩

theorem reopens_leaf_branch_rest {c : Container} {cs : List Node} {info : Record}
    (h : opens (.branch c cs info) = false) : reopens (.branch c cs info) = reopensAny cs := by
  rw [reopens, h]
  rfl

/-- A node that stays as it is when its children have been rebuilt. -/
theorem rebuilt_of_renewed {n' : Node} (renewed : Renewed Rebuilt n n') (closed : opens n' = false) :
    Rebuilt n n' := by
  cases renewed with
  | leaf l info => exact ⟨rfl, rfl, by simp [Settled, all_leaf, reopens, closed]⟩
  | @branch c info cs new related =>
      refine ⟨rfl, ?_, ?_⟩
      · cases c with
        | paragraph =>
            cases related with
            | nil => rfl
            | cons first _ => exact first.text
        | _ => rfl
      · have source : opens (.branch c cs info) = false := by
          cases c with
          | blockQuote => rwa [opens_branch, ← Rebuilt.startsCallout related, ← opens_branch]
          | _ => rfl
        rw [reopens_leaf_branch_rest source, ← Rebuilt.settledAll related, Settled, all_branch]
        exact and_iff_right closed
  | @table al info header header' rows new ofHeader ofRows =>
      refine ⟨rfl, rfl, ?_⟩
      rw [Settled, all_table]
      cases ofHeader with
      | none =>
          rw [reopens, ← Rebuilt.settledAll ofRows]
          simp [closed, Settled]
      | some first =>
          rw [reopens, Bool.or_eq_false_iff, ← first.settled, ← Rebuilt.settledAll ofRows]
          simp [closed, Settled]

theorem has_calloutKey (info : Record) (v w : Value) :
    ((info.set calloutKey v).set attrsKey w).has calloutKey = true := by
  rw [Record.has, get?_calloutKey]
  rfl

/-- So a rebuilt quote never waits again. -/
theorem settled_rebuilt {info as new : Record} {v : Value} {cs : List Node} :
    Settled ((Node.branch .blockQuote cs (info.set calloutKey v)).styled as new) ↔
      ∀ c ∈ cs, Settled c := by
  have closed : opens ((Node.branch .blockQuote cs (info.set calloutKey v)).styled as new) = false := by
    change (!((info.set calloutKey v).set attrsKey _).has calloutKey && _) = false
    rw [has_calloutKey]
    rfl
  rw [Settled, all_iff]
  exact and_iff_right closed

theorem rebuilt_of_rewrites {n' : Node} (renewed : Renewed Rebuilt n n') (h : Rewrites n' m) :
    Rebuilt n m := by
  cases h with
  | keep closed => exact rebuilt_of_renewed renewed closed
  | @rebuild new info opening title as unkeyed opened rendered has =>
      cases renewed with
      | @branch _ _ cs _ related =>
          refine ⟨rfl, rfl, ?_⟩
          have source : opens (.branch .blockQuote cs info) = true := by
            rw [opens_branch, unkeyed, ← Rebuilt.startsCallout related, ← isSome_opening?, opened]
            rfl
          obtain ⟨content, textInfo, firstInfo, rfl⟩ := opening?_eq_some opened
          cases related with
          | cons _ related =>
              rw [settled_rebuilt, settled_body, reopens, if_pos source, Bool.or_eq_false_iff,
                Rebuilt.startsCallout related, Rebuilt.settledAll related]
              exact Iff.rfl

theorem run_rebuilt (o : Options) (d : Node) (r : Run) :
    Visited (visit.run o d) r (Rebuilt d) True := by
  have visit (inLink : Bool) (n n' : Node) (r : Run) (_ : True) (renewed : Renewed Rebuilt n n') :
      Visited (visit o inLink n') r (Rebuilt n) True :=
    (visit_yields (fun _ _ _ _ _ _ => trivial) fun _ => trivial).imp
      fun m h => rebuilt_of_rewrites renewed h
  exact transform_yields visit d false r fun _ _ => trivial

/-- A document without markup and attributes of its own has a run. -/
theorem run_ok (o : Options) {d : Node} (closed : ∀ n ∈ d.nodes, Pipeline.Closed n)
    (keys : ∀ n ∈ d.nodes, ((n.info.get? Blocks.markerKey).getD .null).isKey = true) (r : Run) :
    ∃ m s, (visit.run o d).outcome r = (.ok (some m), s) :=
  Pipeline.stage_ok (s := callouts) (by simp [builtin])
    (fun n hn => (closed n hn).sound (.inl (keys n hn))) r

/-- A run leaves a settled tree alone. -/
theorem run_settled (o : Options) (h : Settled n) (r : Run) :
    (visit.run o n).outcome r = (.ok (some n), r) :=
  transform_fixed (fun inLink _ closed => visit_of_not_opens closed inLink r) n false h

/-- A run changes every tree that is not settled. -/
theorem settled_of_run (o : Options) {r r' : Run}
    (h : (visit.run o n).outcome r = (.ok (some n), r')) : Settled n := by
  let R (n m : Node) : Prop := m = n → Settled n
  have visit (inLink : Bool) (n n' : Node) (r : Run) (_ : True) (renewed : Renewed R n n') :
      Visited (visit o inLink n') r (R n) True := by
    refine (visit_yields (fun _ _ _ _ _ _ => trivial) fun _ => trivial).imp ?_
    intro m rewrites same
    rw [same] at rewrites
    cases rewrites with
    | keep closed => exact all_iff.mpr ⟨closed, fun c hc => renewed.of_self c hc rfl⟩
    | @rebuild new info opening title as unkeyed =>
        have shape : info = (info.set calloutKey opening.directive.toValue).set attrsKey _ :=
          renewed.info
        have keyed : info.has calloutKey = true :=
          (congrArg (Record.has · calloutKey) shape).trans (has_calloutKey _ _ _)
        rw [unkeyed] at keyed
        cases keyed
  obtain ⟨_, ⟨⟩, settled⟩ :=
    (transform_yields visit n false r fun _ _ => trivial).ok _ _ h
  exact settled rfl

/-- A second run leaves the result of the first alone exactly if the source holds no callout that
starts with two blocks with a directive. It then changes neither the context nor the log. -/
theorem second_run_iff (o : Options) (d m : Node) (r s t : Run)
    (first : (visit.run o d).outcome r = (.ok (some m), s)) :
    (((visit.run o m).outcome t).1 = .ok (some m) ↔ reopens d = false) ∧
      (reopens d = false → (visit.run o m).outcome t = (.ok (some m), t)) := by
  obtain ⟨_, ⟨⟩, rebuilt⟩ := (run_rebuilt o d r).ok _ _ first
  have again : reopens d = false → (visit.run o m).outcome t = (.ok (some m), t) := fun once =>
    run_settled o (rebuilt.settled.mpr once) t
  refine ⟨⟨fun same => ?_, fun once => by rw [again once]⟩, again⟩
  have outcome : (visit.run o m).outcome t = (.ok (some m), ((visit.run o m).outcome t).2) :=
    Prod.ext same rfl
  exact rebuilt.settled.mp (settled_of_run o outcome)

/-- A callout inside another. -/
def nestedCallout : Node :=
  .branch .document [.branch .blockQuote [Node.paragraph [Node.ofText "[!note] A"],
    .branch .blockQuote [Node.paragraph [Node.ofText "[!tip] B"], Node.paragraph [Node.ofText "C"]]
      []] []] []

theorem nestedCallout_second_run :
    ∃ m s, (visit.run Options.defaults nestedCallout).outcome ⟨Context.new "n" none, []⟩ =
        (.ok (some m), s) ∧
      (visit.run Options.defaults m).outcome s = (.ok (some m), s) := by
  obtain ⟨m, s, first⟩ := run_ok Options.defaults (d := nestedCallout) (by decide) (by decide)
    ⟨Context.new "n" none, []⟩
  exact ⟨m, s, first, (second_run_iff _ _ _ _ _ s first).2 (by decide)⟩

/-- A callout whose first two paragraphs hold a directive each. -/
def doubleCallout : Node :=
  .branch .document [.branch .blockQuote [Node.paragraph [Node.ofText "[!note] A"],
    Node.paragraph [Node.ofText "[!tip] B"]] []] []

theorem doubleCallout_rebuilt_twice :
    ∃ m s, (visit.run Options.defaults doubleCallout).outcome ⟨Context.new "n" none, []⟩ =
        (.ok (some m), s) ∧
      ((visit.run Options.defaults m).outcome s).1 ≠ .ok (some m) := by
  obtain ⟨m, s, first⟩ := run_ok Options.defaults (d := doubleCallout) (by decide) (by decide)
    ⟨Context.new "n" none, []⟩
  refine ⟨m, s, first, fun same => ?_⟩
  obtain ⟨_, ⟨⟩, rebuilt⟩ := (run_rebuilt _ _ _).ok _ _ first
  have outcome : (visit.run Options.defaults m).outcome s =
      (.ok (some m), ((visit.run Options.defaults m).outcome s).2) := Prod.ext same rfl
  have once : reopens doubleCallout = false := rebuilt.settled.mp (settled_of_run _ outcome)
  have twice : reopens doubleCallout = true := by decide
  rw [once] at twice
  cases twice

end NoteMarkup.Stage.Callouts
