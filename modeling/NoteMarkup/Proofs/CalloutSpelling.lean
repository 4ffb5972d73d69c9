import NoteMarkup.Proofs.CalloutKinds
import NoteMarkup.Proofs.CalloutSyntax
import NoteMarkup.Proofs.RenderedText
import NoteMarkup.Proofs.Retouch
import NoteMarkup.Proofs.Visits

/-! Kinds of callouts that stand for one another. The kind as it is written shows up in the log and in
the directive that a rebuilt quote remembers, and in nothing that is rendered. So trees that differ in
the spelling of kinds are rendered alike, however deep the callouts stand in one another. -/

namespace NoteMarkup

open Node

namespace Text

variable {s : List Char} {c : Char}

theorem lowerChar_ne_nil (before after : List Char) (c : Char) : lowerChar before c after ≠ [] := by
  unfold lowerChar
  repeat' split
  all_goals nofun

theorem lower_eq_nil_iff : lower s = [] ↔ s = [] := by
  cases s with
  | nil => simp [lower, lowerFrom]
  | cons c s => simp [lower, lowerFrom, lowerChar_ne_nil]

end Text

namespace Callout

open Text

theorem alias_ne_empty : ∀ p ∈ aliases, p.2 ≠ "" := by decide

/-- No kind stands for the empty one. -/
theorem canonical_eq_empty_iff {kind : String} : canonical kind = "" ↔ kind = "" := by
  constructor
  · intro h
    rcases alias_or_custom kind with listed | ⟨-, custom⟩
    · exact absurd h (alias_ne_empty _ listed)
    · have empty : lower kind.toList = [] := by simpa [custom, lowered] using h
      simpa using lower_eq_nil_iff.mp empty
  · rintro rfl
    decide +kernel

/-- Two kinds that stand for the same one. -/
structure Synonyms (kind kind' : String) : Prop where
  inside : ∀ c ∈ kind.toList, isKindChar c = true
  inside' : ∀ c ∈ kind'.toList, isKindChar c = true
  same : canonical kind = canonical kind'

theorem Synonyms.eq_empty_iff {kind kind' : String} (h : Synonyms kind kind') :
    kind = "" ↔ kind' = "" := by
  rw [← canonical_eq_empty_iff, h.same, canonical_eq_empty_iff]

theorem Synonyms.directive? {kind kind' : String} (h : Synonyms kind kind') (rest : List Char) :
    directive? kind'.toList rest =
      (directive? kind.toList rest).map fun d => { d with rawKind := kind' } := by
  rw [Callout.directive?, Callout.directive?, Option.map_map]
  refine Option.map_congr fun parts _ => ?_
  simp [ofParts, h.same]

end Callout

namespace Stage.Callouts

/-- A tree without the directives that rebuilt quotes remember. -/
def forget : Retouch := ⟨id, fun _ info => info.erase calloutKey, fun _ => false⟩

variable {n : Node} {info : Record}

open Html

theorem nodeAttributes_forget (base info : Record) :
    nodeAttributes base (info.erase calloutKey) = nodeAttributes base info := by
  rw [nodeAttributes, attrsOf, calloutKey, attrsKey, Record.get?_erase_of_ne (by decide)]
  rfl

theorem get?_forget {key : String} (other : key ≠ "callout") (info : Record) :
    (info.erase calloutKey).get? (.str key) = info.get? (.str key) :=
  Record.get?_erase_of_ne other.symm

theorem taskBox_forget (mark : Option TaskMark) (info : Record) :
    taskBox mark (info.erase calloutKey) = taskBox mark info := by
  unfold taskBox interactiveKey
  rw [get?_forget (by decide)]

mutual

theorem render_forget (tight : Bool) : (n : Node) → render tight (forget.tree n) = render tight n
  | .leaf l info => rfl
  | .branch c cs info => by
      have content : ∀ tight, renderAll tight (forget.trees cs) = renderAll tight cs :=
        fun tight => renderAll_forget tight cs
      change render tight (.branch c (forget.trees cs) (info.erase calloutKey)) = _
      cases c with
      | blockQuote =>
          have tag : (info.erase calloutKey).get? tagKey = info.get? tagKey :=
            get?_forget (by decide) info
          simp only [render, content, nodeAttributes_forget, tag]
      | listItem mark => simp only [render, content, nodeAttributes_forget, taskBox_forget]
      | _ => simp only [render, content, nodeAttributes_forget]
  | .table none rows al info => by
      have isEmpty : (forget.trees rows).isEmpty = rows.isEmpty := by cases rows <;> rfl
      simp only [Retouch.tree, render, renderRows_forget, isEmpty]
  | .table (some header) rows al info => by
      have isEmpty : (forget.trees rows).isEmpty = rows.isEmpty := by cases rows <;> rfl
      simp only [Retouch.tree, render, renderRow_forget, renderRows_forget, isEmpty]

theorem renderAll_forget (tight : Bool) :
    (ns : List Node) → renderAll tight (forget.trees ns) = renderAll tight ns
  | [] => rfl
  | n :: ns => by rw [Retouch.trees, renderAll, renderAll, render_forget, renderAll_forget]

theorem renderRow_forget (tight : Bool) (cell : String) (al : List (Option String)) :
    (n : Node) → renderRow tight cell al (forget.tree n) = renderRow tight cell al n
  | .branch c cells info => by
      have content := renderCells_forget tight cell al cells
      change renderRow tight cell al (.branch c (forget.trees cells) (info.erase calloutKey)) = _
      cases c with
      | tableRow isHeader => simp only [renderRow, content]
      | _ => rfl
  | .leaf l info => rfl
  | .table none rows al info => rfl
  | .table (some header) rows al info => rfl

theorem renderRows_forget (tight : Bool) (cell : String) (al : List (Option String)) :
    (rows : List Node) → renderRows tight cell al (forget.trees rows) = renderRows tight cell al rows
  | [] => rfl
  | row :: rows => by
      rw [Retouch.trees, renderRows, renderRows, renderRow_forget, renderRows_forget]

theorem renderCells_forget (tight : Bool) (cell : String) (al : List (Option String)) :
    (cells : List Node) →
      renderCells tight cell al (forget.trees cells) = renderCells tight cell al cells
  | [] => rfl
  | .branch c cs info :: cells => by
      have content := renderAll_forget tight cs
      have later := renderCells_forget tight cell al.tail cells
      change renderCells tight cell al
        (.branch c (forget.trees cs) (info.erase calloutKey) :: forget.trees cells) = _
      cases c with
      | tableCell own => simp only [renderCells, content, later, nodeAttributes_forget]
      | _ => rfl
  | .leaf l info :: cells => rfl
  | .table none rows al info :: cells => rfl
  | .table (some header) rows al info :: cells => rfl

end

theorem ofDocument_forget (n : Node) : ofDocument (forget.tree n) = ofDocument n := by
  rw [ofDocument_eq, ofDocument_eq, render_forget]

theorem ofInline_forget (ns : List Node) : ofInline (forget.trees ns) = ofInline ns := by
  rw [ofInline_eq, ofInline_eq, renderAll_forget]

/-- What a quote that opens a callout becomes. -/
def rebuilt (o : Opening) (info : Record) : Except Fault Node := do
  let title ← ofInline (titleNodes o.directive o.siblings)
  (Node.branch .blockQuote (body o title) (info.set calloutKey o.directive.toValue)).withAttrs
    o.directive.attributes

/-- What a node becomes whose children are done. -/
def replaced : Node → Except Fault (Option Node)
  | .branch .blockQuote cs info =>
    if info.has calloutKey then .ok (some (.branch .blockQuote cs info))
    else match opening? cs with
      | some o => some <$> rebuilt o info
      | none => .ok (some (.branch .blockQuote cs info))
  | n => .ok (some n)

theorem rebuild_steady (o : Opening) (info : Record) : (rebuild o info).Steady (rebuilt o info) := by
  unfold rebuild rebuilt
  refine (StageM.Steady.ofExcept _).bind fun title => ?_
  refine .skip (fun r => ⟨_, _, StageM.outcome_context r⟩) fun c => ?_
  refine .skip (fun r => ⟨_, _, StageM.outcome_debug _ _ r⟩) fun _ => ?_
  exact .ofExcept _

theorem visit_steady (o : Options) (inLink : Bool) (n : Node) :
    (visit o inLink n).Steady (replaced n) := by
  cases n with
  | leaf l info => exact .pure _
  | table header rows al info => exact .pure _
  | branch c cs info =>
      cases c with
      | blockQuote =>
          dsimp only [visit, replaced]
          by_cases keyed : info.has calloutKey = true
          · rw [if_pos keyed, if_pos keyed]
            exact .pure _
          · rw [if_neg keyed, if_neg keyed]
            cases opening? cs with
            | none => exact .pure _
            | some opening => exact .map some (rebuild_steady opening info)
      | _ => exact .pure _

/-- Two computations stop at the same fault or give results that look alike. -/
def Agree {α β : Type} (look : α → β) (x y : Except Fault α) : Prop := x.map look = y.map look

theorem Agree.bind {α β γ δ : Type} {p : α → γ} {q : β → δ} {x y : Except Fault α}
    {k l : α → Except Fault β} (h : Agree p x y) (next : ∀ a b, p a = p b → Agree q (k a) (l b)) :
    Agree q (x >>= k) (y >>= l) := by
  cases x with
  | error e =>
      cases y with
      | error e' =>
          have same : e = e' := Except.error.inj h
          rw [same]
          rfl
      | ok b => cases h
  | ok a =>
      cases y with
      | error e' => cases h
      | ok b => exact next a b (Except.ok.inj h)

/-- What is rendered of an opening of a callout. -/
def Opening.plain (o : Opening) : Opening where
  directive := { o.directive with rawKind := "" }
  remaining := o.remaining
  siblings := forget.trees o.siblings
  rest := forget.trees o.rest

theorem isEmpty_forget (ns : List Node) : (forget.trees ns).isEmpty = ns.isEmpty := by
  cases ns <;> rfl

section Alike

variable {o o' : Opening} (same : o.plain = o'.plain)

include same

theorem isEmpty_alike : o.siblings.isEmpty = o'.siblings.isEmpty ∧ o.rest.isEmpty = o'.rest.isEmpty := by
  have siblings := congrArg Opening.siblings same
  have rest := congrArg Opening.rest same
  constructor
  · rw [← isEmpty_forget, ← isEmpty_forget o'.siblings]
    exact congrArg List.isEmpty siblings
  · rw [← isEmpty_forget, ← isEmpty_forget o'.rest]
    exact congrArg List.isEmpty rest

theorem titleNodes_alike :
    forget.trees (titleNodes o.directive o.siblings) =
      forget.trees (titleNodes o'.directive o'.siblings) := by
  have siblings : forget.trees o.siblings = forget.trees o'.siblings := congrArg Opening.siblings same
  have kind : o.directive.kind = o'.directive.kind := congrArg (·.directive.kind) same
  have title : o.directive.title = o'.directive.title := congrArg (·.directive.title) same
  unfold titleNodes
  rw [(isEmpty_alike same).1, kind, title]
  repeat' split
  · rfl
  · exact siblings
  · rfl
  · exact congrArg (_ :: ·) siblings

end Alike

theorem forget_append (ns ms : List Node) :
    forget.trees (ns ++ ms) = forget.trees ns ++ forget.trees ms := by
  rw [Retouch.trees_eq_map, Retouch.trees_eq_map, Retouch.trees_eq_map, List.map_append]

theorem forget_toList (n : Option Node) : forget.trees n.toList = (n.map forget.tree).toList := by
  cases n <;> rfl

theorem body_alike {o o' : Opening} (same : o.plain = o'.plain) (title : String) :
    forget.trees (body o title) = forget.trees (body o' title) := by
  have remaining : o.remaining = o'.remaining := congrArg (·.remaining) same
  have fold : o.directive.fold = o'.directive.fold := congrArg (·.directive.fold) same
  have rest : forget.trees o.rest = forget.trees o'.rest := congrArg (·.rest) same
  have wrapped : forget.tree (wrapper o.rest) = forget.tree (wrapper o'.rest) := by
    rw [wrapper, wrapper, Retouch.tree, Retouch.tree, rest]
  unfold body Callout.Directive.collapsible
  simp only [forget_append, apply_ite forget.trees, Retouch.trees, remaining, fold, wrapped,
    (isEmpty_alike same).2]

theorem withAttrs_forget (as : Record) {cs cs' : List Node} (same : forget.trees cs = forget.trees cs')
    (v v' : Value) (info : Record) :
    Agree forget.tree ((Node.branch .blockQuote cs (info.set calloutKey v)).withAttrs as)
      ((Node.branch .blockQuote cs' (info.set calloutKey v')).withAttrs as) := by
  have found : ∀ v, (info.set calloutKey v).get? attrsKey = info.get? attrsKey :=
    fun v => Record.get?_set_of_ne (by decide)
  have left : ∀ v w, ((info.set calloutKey v).set attrsKey w).erase calloutKey =
      (info.erase calloutKey).set attrsKey w := by
    intro v w
    rw [Record.set, attrsKey, Record.erase, calloutKey, Entries.erase_insert_of_ne (by decide)]
    exact congrArg (Entries.insert · _ w) (Entries.erase_insert_self info _ v)
  have styled : ∀ w, forget.tree ((Node.branch .blockQuote cs (info.set calloutKey v)).withInfo
      ((info.set calloutKey v).set attrsKey w)) =
      forget.tree ((Node.branch .blockQuote cs' (info.set calloutKey v')).withInfo
        ((info.set calloutKey v').set attrsKey w)) := by
    intro w
    change Node.branch _ (forget.trees cs) (((info.set calloutKey v).set attrsKey w).erase calloutKey) =
      Node.branch _ (forget.trees cs') (((info.set calloutKey v').set attrsKey w).erase calloutKey)
    rw [same, left, left]
  unfold withAttrs addAttrs Node.info
  rw [found, found]
  split
  · exact congrArg Except.ok (styled _)
  · exact congrArg Except.ok (styled _)
  · rfl

theorem rebuilt_alike {o o' : Opening} (same : o.plain = o'.plain) (info : Record) :
    Agree forget.tree (rebuilt o info) (rebuilt o' info) := by
  have attributes : o.directive.attributes = o'.directive.attributes :=
    congrArg (·.directive.attributes) same
  unfold rebuilt
  rw [← ofInline_forget, titleNodes_alike same, ofInline_forget, attributes]
  refine .bind (p := id) rfl fun title title' equal => ?_
  cases equal
  exact withAttrs_forget _ (body_alike same _) _ _ info

theorem opening?_plain (cs : List Node) :
    (opening? cs).map Opening.plain = (opening? (forget.trees cs)).map fun o =>
      { o with directive := { o.directive with rawKind := "" } } := by
  cases cs with
  | nil => rfl
  | cons n rest =>
      cases n with
      | leaf l info => rfl
      | table header rows al info => cases header <;> rfl
      | branch c ns info =>
          cases c with
          | paragraph =>
              cases ns with
              | nil => rfl
              | cons m siblings =>
                  cases m with
                  | leaf l textInfo =>
                      cases l with
                      | text content =>
                          change Option.map _ (Option.map _ _) = Option.map _ (Option.map _ _)
                          rw [Option.map_map, Option.map_map]
                          rfl
                      | _ => rfl
                  | branch c' ms info' => rfl
                  | table header rows al info' => cases header <;> rfl
          | _ => rfl

theorem opening?_alike {cs cs' : List Node} (same : forget.trees cs = forget.trees cs') :
    (opening? cs).map Opening.plain = (opening? cs').map Opening.plain := by
  rw [opening?_plain, opening?_plain, same]

theorem map_agree {α β : Type} {look : α → β} {x y : Except Fault α} (h : Agree look x y) :
    Agree (Option.map look) (some <$> x) (some <$> y) := by
  rw [map_eq_pure_bind, map_eq_pure_bind]
  exact h.bind fun a b same => congrArg (fun c => Except.ok (some c)) same

/-- Two quotes that open callouts which look alike become quotes that look alike. -/
theorem replaced_opened {cs cs' : List Node} {info : Record}
    (unkeyed : info.has calloutKey = false) (opens : (opening? cs).isSome = true)
    (same : (opening? cs).map Opening.plain = (opening? cs').map Opening.plain) :
    Agree (Option.map forget.tree) (replaced (.branch .blockQuote cs info))
      (replaced (.branch .blockQuote cs' info)) := by
  obtain ⟨o, opened⟩ := Option.isSome_iff_exists.mp opens
  rw [opened, Option.map_some] at same
  obtain ⟨o', opened', alike⟩ := Option.map_eq_some_iff.mp same.symm
  simp only [replaced, unkeyed, opened, opened', Bool.false_eq_true, if_false]
  exact map_agree (rebuilt_alike alike.symm info)

theorem replaced_branch (c : Container) {cs cs' : List Node} (info : Record)
    (same : forget.trees cs = forget.trees cs') :
    Agree (Option.map forget.tree) (replaced (.branch c cs info)) (replaced (.branch c cs' info)) := by
  have kept : Agree (Option.map forget.tree) (.ok (some (.branch c cs info)))
      (.ok (some (.branch c cs' info))) :=
    congrArg (fun ns => Except.ok (some (Node.branch c ns (info.erase calloutKey)))) same
  cases c with
  | blockQuote =>
      by_cases keyed : info.has calloutKey = true
      · simp only [replaced, keyed, if_true]
        exact kept
      · have unkeyed : info.has calloutKey = false := Bool.eq_false_iff.mpr keyed
        cases opened : opening? cs with
        | some o => exact replaced_opened unkeyed (by rw [opened]; rfl) (opening?_alike same)
        | none =>
            have opened' : opening? cs' = none := by
              have both := opening?_alike same
              rw [opened, Option.map_none, eq_comm, Option.map_eq_none_iff] at both
              exact both
            simp only [replaced, keyed, opened, opened']
            exact kept
  | _ => exact kept

/-- The spelling of a kind in the opening text of a callout. -/
def spelled (kind rest : String) : Leaf := .text ("[!" ++ kind ++ rest)

/-- The second tree is the first with other spellings of the kinds of callouts. -/
inductive Respelled : Node → Node → Prop
  | same {n n' : Node} : Renewed Respelled n n' → Respelled n n'
  | callout {kind kind' rest : String} {textInfo firstInfo info : Record}
      {siblings siblings' later later' : List Node} :
      Callout.Synonyms kind kind' →
      (∀ c, rest.toList.head? = some c → Callout.isKindChar c = false) →
      opens (.branch .blockQuote (.branch .paragraph (.leaf (spelled kind rest) textInfo :: siblings)
        firstInfo :: later) info) = true →
      List.Forall₂ Respelled siblings siblings' → List.Forall₂ Respelled later later' →
      Respelled
        (.branch .blockQuote (.branch .paragraph (.leaf (spelled kind rest) textInfo :: siblings)
          firstInfo :: later) info)
        (.branch .blockQuote (.branch .paragraph (.leaf (spelled kind' rest) textInfo :: siblings')
          firstInfo :: later') info)

theorem splitLine_append {front s : List Char} (oneLine : '\n' ∉ front) :
    splitLine (String.ofList (front ++ s)) =
      (String.ofList (front ++ (splitLine (String.ofList s)).1.toList),
        (splitLine (String.ofList s)).2) := by
  unfold splitLine
  rw [String.toList_ofList, String.toList_ofList, Text.cutAt_append oneLine]
  cases Text.cutAt '\n' s with
  | none => simp
  | some parts => simp

/-- The first line of a text starts with what the text starts with. -/
theorem head?_splitLine {s : String} {c : Char} (h : (splitLine s).1.toList.head? = some c) :
    s.toList.head? = some c := by
  unfold splitLine at h
  split at h
  · next line later cut =>
      unfold Text.cutAt at cut
      split at cut
      · cases cut
      · cases cut
        rw [String.toList_ofList] at h
        cases chars : s.toList with
        | nil =>
            rw [chars] at h
            cases h
        | cons d ds =>
            rw [chars, List.takeWhile_cons] at h
            split at h
            · exact h
            · cases h
  · exact h

theorem parse?_spelled {kind rest : String} (named : kind ≠ "")
    (inside : ∀ c ∈ kind.toList, Callout.isKindChar c = true)
    (stop : ∀ c, rest.toList.head? = some c → Callout.isKindChar c = false) :
    Callout.parse? (splitLine ("[!" ++ kind ++ rest)).1 =
        Callout.directive? kind.toList (splitLine rest).1.toList ∧
      (splitLine ("[!" ++ kind ++ rest)).2 = (splitLine rest).2 := by
  have text : "[!" ++ kind ++ rest = String.ofList ('[' :: '!' :: kind.toList ++ rest.toList) := by
    rw [← String.toList_inj]
    simp
  have oneLine : '\n' ∉ '[' :: '!' :: kind.toList := by
    have notKind : '\n' ∉ kind.toList := fun member => absurd (inside _ member) (by decide)
    simpa using notKind
  have isKind : Callout.IsKind kind.toList (splitLine rest).1.toList :=
    ⟨by simpa using named, inside, fun c head => stop c (head?_splitLine head)⟩
  rw [text, splitLine_append oneLine, String.ofList_toList]
  refine ⟨?_, rfl⟩
  rw [Callout.parse?, String.toList_ofList]
  exact Callout.parseChars?_written isKind

theorem opening?_text (content : String) (textInfo firstInfo : Record) (siblings rest : List Node) :
    opening? (.branch .paragraph (.leaf (.text content) textInfo :: siblings) firstInfo :: rest) =
      (Callout.parse? (splitLine content).1).map fun d =>
        ⟨d, (splitLine content).2, siblings, rest⟩ := rfl

theorem opening?_respelled {kind kind' rest : String} (textInfo firstInfo : Record)
    {siblings siblings' later later' : List Node} (synonyms : Callout.Synonyms kind kind')
    (stop : ∀ c, rest.toList.head? = some c → Callout.isKindChar c = false)
    (siblings_alike : forget.trees siblings = forget.trees siblings')
    (later_alike : forget.trees later = forget.trees later') :
    (opening? (.branch .paragraph (.leaf (spelled kind rest) textInfo :: siblings) firstInfo ::
      later)).map Opening.plain =
    (opening? (.branch .paragraph (.leaf (spelled kind' rest) textInfo :: siblings') firstInfo ::
      later')).map Opening.plain := by
  by_cases named : kind = ""
  · have both : kind = kind' := named.trans (synonyms.eq_empty_iff.mp named).symm
    refine opening?_alike ?_
    rw [both, Retouch.trees, Retouch.trees, Retouch.tree, Retouch.tree, Retouch.trees, Retouch.trees,
      siblings_alike, later_alike]
  · have named' : kind' ≠ "" := mt synonyms.eq_empty_iff.mpr named
    obtain ⟨parsed, remaining⟩ := parse?_spelled named synonyms.inside stop
    obtain ⟨parsed', remaining'⟩ := parse?_spelled named' synonyms.inside' stop
    rw [spelled, spelled, opening?_text, opening?_text, parsed, parsed', remaining, remaining',
      synonyms.directive?, Option.map_map, Option.map_map, Option.map_map]
    refine Option.map_congr fun d _ => ?_
    simp [Opening.plain, siblings_alike, later_alike]

theorem forget_table (header : Option Node) (rows : List Node) (al : List (Option String))
    (info : Record) : forget.tree (.table header rows al info) =
      .table (header.map forget.tree) (forget.trees rows) al info := by
  cases header <;> rfl

/-- Lists of trees with other spellings are replaced alike if the trees in them are. -/
theorem transformAll_respelled {ns ns' : List Node} (related : List.Forall₂ Respelled ns ns')
    (each : ∀ n ∈ ns, ∀ n', Respelled n n' → ∀ inLink, Agree (Option.map forget.tree)
      (n.transform (fun _ => replaced) inLink) (n'.transform (fun _ => replaced) inLink))
    (inLink : Bool) :
    Agree forget.trees (transformAll (fun _ => replaced) inLink ns)
      (transformAll (fun _ => replaced) inLink ns') := by
  induction related with
  | nil => rfl
  | @cons n n' ns ns' first _ ih =>
      rw [transformAll, transformAll]
      refine (each n List.mem_cons_self n' first inLink).bind fun new new' alike => ?_
      refine (ih fun m hm => each m (List.mem_cons_of_mem _ hm)).bind fun rest rest' later => ?_
      refine congrArg Except.ok ?_
      rw [forget_append, forget_append, later, forget_toList, forget_toList, alike]

/-- The first text of a quote stays as it is while the nodes after it are replaced. -/
theorem transform_quote (inLink : Bool) (content : String) (textInfo firstInfo info : Record)
    (siblings later : List Node) :
    (Node.branch .blockQuote (.branch .paragraph (.leaf (.text content) textInfo :: siblings)
      firstInfo :: later) info).transform (fun _ => replaced) inLink = (do
        let siblings ← transformAll (fun _ => replaced) inLink siblings
        let later ← transformAll (fun _ => replaced) inLink later
        replaced (.branch .blockQuote (.branch .paragraph (.leaf (.text content) textInfo :: siblings)
          firstInfo :: later) info)) := by
  have pureLeaf : replaced (.leaf (.text content) textInfo) =
      pure (some (.leaf (.text content) textInfo)) := rfl
  have pureFirst : ∀ ns, replaced (.branch .paragraph ns firstInfo) =
      pure (some (.branch .paragraph ns firstInfo)) := fun _ => rfl
  simp only [transform, transformAll, pureLeaf, pureFirst, Container.isLink, Bool.or_false, pure_bind,
    bind_assoc, Option.toList_some, List.singleton_append]

theorem transform_respelled (n : Node) : ∀ n', Respelled n n' → ∀ inLink,
    Agree (Option.map forget.tree) (n.transform (fun _ => replaced) inLink)
      (n'.transform (fun _ => replaced) inLink) := by
  induction n using induct_below with
  | step n ih =>
      intro n' h inLink
      cases h with
      | same renewed =>
          cases renewed with
          | leaf l info => rfl
          | @branch c info cs new related =>
              rw [transform, transform]
              refine (transformAll_respelled related (fun m hm => (ih m hm).self) _).bind ?_
              exact fun new new' alike => replaced_branch c info alike
          | @table al info header header' rows new ofHeader ofRows =>
              have rowsAlike := transformAll_respelled ofRows
                (fun m hm => (ih m (List.mem_append_right _ hm)).self) inLink
              cases ofHeader with
              | none =>
                  rw [transform, transform]
                  refine rowsAlike.bind fun new new' alike => ?_
                  exact congrArg (fun rows => Except.ok (some (Node.table none rows al info))) alike
              | @some first first' firstRelated =>
                  rw [transform, transform]
                  refine rowsAlike.bind fun new new' alike => ?_
                  have headerAlike := (ih first List.mem_cons_self).self _ firstRelated inLink
                  refine headerAlike.bind fun m m' sameHeader => ?_
                  refine congrArg (fun t => Except.ok (some t)) ?_
                  rw [forget_table, forget_table, sameHeader, alike]
      | @callout kind kind' rest textInfo firstInfo info siblings siblings' later later' synonyms stop
          opens siblingsRelated laterRelated =>
          have first := ih _ List.mem_cons_self
          rw [spelled, spelled, transform_quote, transform_quote]
          refine (transformAll_respelled siblingsRelated
            (fun m hm => (first.child (List.mem_cons_of_mem _ hm)).self) inLink).bind ?_
          intro ns ns' siblingsAlike
          refine (transformAll_respelled laterRelated
            (fun m hm => (ih m (List.mem_cons_of_mem _ hm)).self) inLink).bind ?_
          intro ms ms' laterAlike
          have openings := opening?_respelled textInfo firstInfo synonyms stop siblingsAlike
            laterAlike
          rw [Callouts.opens, Bool.and_eq_true, Bool.not_eq_true', spelled, opening?_text,
            Option.isSome_map] at opens
          refine replaced_opened opens.1 ?_ openings
          rw [opening?_text, Option.isSome_map]
          exact opens.2

/-- The markup of a document whose callouts have been rebuilt. -/
def page (o : Options) (n : Node) (r : Run) : Except Fault (Option String) :=
  ((visit.run o n).outcome r).1 >>= Option.mapM ofDocument

/-- Documents that differ in the spelling of the kinds of their callouts give the same markup. -/
theorem page_respelled {n n' : Node} (h : Respelled n n') (o : Options) (r r' : Run) :
    page o n r = page o n' r' := by
  have alike := transform_respelled n n' h false
  have shown : ∀ x : Except Fault (Option Node), x >>= Option.mapM ofDocument =
      x.map (Option.map forget.tree) >>= Option.mapM ofDocument := by
    intro x
    cases x with
    | error e => rfl
    | ok m =>
        cases m with
        | none => rfl
        | some m =>
            change Option.mapM ofDocument (some m) = Option.mapM ofDocument (some (forget.tree m))
            rw [Option.mapM_some, Option.mapM_some, ofDocument_forget]
  unfold page Visit.run
  rw [transform_steady (visit_steady o) n false r, transform_steady (visit_steady o) n' false r',
    shown, alike, ← shown]

/-- A callout in a callout, with the kinds of both. -/
def nestedKinds (outer inner : String) : Node :=
  .branch .document [.branch .blockQuote [Node.paragraph [.leaf (spelled outer "]- Keys") []],
    .branch .blockQuote [Node.paragraph [.leaf (spelled inner "] Save") []]] []] []] []

theorem nestedKinds_respelled : Respelled (nestedKinds "TLDR" "hint") (nestedKinds "abstract" "tip") := by
  have outerKinds : Callout.Synonyms "TLDR" "abstract" :=
    ⟨List.all_eq_true.mp (by decide), List.all_eq_true.mp (by decide), by decide +kernel⟩
  have innerKinds : Callout.Synonyms "hint" "tip" :=
    ⟨List.all_eq_true.mp (by decide), List.all_eq_true.mp (by decide), by decide +kernel⟩
  have inner : Respelled (.branch .blockQuote [Node.paragraph [.leaf (spelled "hint" "] Save") []]] [])
      (.branch .blockQuote [Node.paragraph [.leaf (spelled "tip" "] Save") []]] []) :=
    .callout innerKinds (by rintro _ ⟨⟩; decide) (by decide +kernel) .nil .nil
  refine .same (.branch _ _ (.cons ?_ .nil))
  exact .callout outerKinds (by rintro _ ⟨⟩; decide) (by decide +kernel) .nil (.cons inner .nil)

theorem nestedKinds_alike :
    Respelled (nestedKinds "TLDR" "hint") (nestedKinds "abstract" "tip") ∧
      (page Options.defaults (nestedKinds "TLDR" "hint") ⟨Context.new "n" none, []⟩).isOk = true ∧
      page Options.defaults (nestedKinds "TLDR" "hint") ⟨Context.new "n" none, []⟩ =
        page Options.defaults (nestedKinds "abstract" "tip") ⟨Context.new "n" none, []⟩ :=
  ⟨nestedKinds_respelled, by decide +kernel, page_respelled nestedKinds_respelled _ _ _⟩

end Stage.Callouts

end NoteMarkup
