import Mathlib.Data.List.Pairwise
import NoteMarkup.Proofs.Retouch
import NoteMarkup.Proofs.Visits

/-! The stages about diagrams, players, status messages, tasks and application links. Each changes
nodes of its own, no image is both a player and a status message, and so they can run in any order. -/

namespace NoteMarkup

open Node

namespace MediaUrl

variable {fronts : List String} {s r rest : List Char} {url : String}

/-- The first character of a text, case disregarded. -/
def initial? (s : List Char) : Option Char := s.head?.map foldChar

theorem initial?_of_afterFolded? {front : List Char} (visible : front ≠ [])
    (h : afterFolded? front s = some rest) : initial? s = front.head? := by
  cases front with
  | nil => exact (visible rfl).elim
  | cons f fs =>
      cases s with
      | nil => cases h
      | cons c cs =>
          rw [afterFolded?] at h
          split at h
          · next same => exact congrArg some (beq_iff_eq.mp same).symm
          · cases h

theorem initial?_mem (visible : ∀ f ∈ fronts, f.toList ≠ []) (h : afterAny? fronts s = some rest) :
    initial? s ∈ fronts.map fun f => f.toList.head? := by
  obtain ⟨f, hf, starts⟩ := List.exists_of_findSome?_eq_some h
  exact List.mem_map.mpr ⟨f, hf, (initial?_of_afterFolded? (visible f hf) starts).symm⟩

theorem initial?_www (h : afterAny? ["www."] s = some rest) : initial? s = some 'w' := by
  simpa using initial?_mem (by decide) h

theorem initial?_mobile (h : afterAny? ["m."] s = some rest) : initial? s = some 'm' := by
  simpa using initial?_mem (by decide) h

theorem initial?_player (h : afterAny? ["youtube.com/", "youtu.be/"] s = some rest) :
    initial? s = some 'y' := by
  simpa using initial?_mem (by decide) h

theorem initial?_status (h : afterAny? ["twitter.com/", "x.com/"] s = some rest) :
    initial? s = some 't' ∨ initial? s = some 'x' := by
  simpa using initial?_mem (by decide) h

theorem initial?_of_player (h : afterPlayerHost? s = some rest) :
    ∃ r, afterWeb? s = some r ∧
      ((∃ q, afterAny? ["www."] r = some q ∧ initial? q = some 'y') ∨
        initial? r = some 'm' ∨ initial? r = some 'y') := by
  obtain ⟨r, web, host⟩ := Option.bind_eq_some_iff.mp h
  refine ⟨r, web, ?_⟩
  rw [Option.orElse_eq_or, Option.or_eq_some_iff] at host
  rcases host with www | ⟨-, other⟩
  · obtain ⟨q, front, player⟩ := Option.bind_eq_some_iff.mp www
    exact .inl ⟨q, front, initial?_player player⟩
  · rw [Option.orElse_eq_or, Option.or_eq_some_iff] at other
    rcases other with mobile | ⟨-, player⟩
    · obtain ⟨q, front, -⟩ := Option.bind_eq_some_iff.mp mobile
      exact .inr (.inl (initial?_mobile front))
    · exact .inr (.inr (initial?_player player))

theorem initial?_of_status (h : isStatus url = true) :
    ∃ r, afterWeb? url.toList = some r ∧
      ((∃ q, afterAny? ["www."] r = some q ∧ (initial? q = some 't' ∨ initial? q = some 'x')) ∨
        initial? r = some 't' ∨ initial? r = some 'x') := by
  unfold isStatus at h
  split at h
  · cases h
  · next r web =>
      refine ⟨r, web, ?_⟩
      dsimp only at h
      split at h
      · next path host =>
          rw [Option.orElse_eq_or, Option.or_eq_some_iff] at host
          rcases host with www | ⟨-, status⟩
          · obtain ⟨q, front, status⟩ := Option.bind_eq_some_iff.mp www
            exact .inl ⟨q, front, initial?_status status⟩
          · exact .inr (initial?_status status)
      · cases h

/-- No address is both one of the player site and one of a status message. -/
theorem player_or_status (url : String) : playerEmbed? url = none ∨ isStatus url = false := by
  cases status : isStatus url with
  | false => exact .inr rfl
  | true =>
      left
      cases player : afterPlayerHost? url.toList with
      | none => simp [playerEmbed?, player]
      | some rest =>
          obtain ⟨r, web, ofPlayer⟩ := initial?_of_player player
          obtain ⟨r', web', ofStatus⟩ := initial?_of_status status
          cases web.symm.trans web'
          -- both can only start with `www.`, and the hosts that follow it differ
          rcases ofPlayer with ⟨q, www, y⟩ | m | y
          · rcases ofStatus with ⟨q', www', other⟩ | other
            · cases www.symm.trans www'
              simp [y] at other
            · simp [initial?_www www] at other
          · rcases ofStatus with ⟨q', www', -⟩ | other
            · simp [initial?_www www'] at m
            · simp [m] at other
          · rcases ofStatus with ⟨q', www', -⟩ | other
            · simp [initial?_www www'] at y
            · simp [y] at other

end MediaUrl

namespace Retouch

variable {info as new : Record} {n : Node}

def dress (new info : Record) : Record := (addAttrs new info).toOption.getD info

theorem dress_eq (h : HasAttrs info as) :
    dress new info = info.set attrsKey (.map (as.merge new)) := by
  rw [dress, h.addAttrs]
  rfl

theorem hasAttrs_dress (new : Record) (h : HasAttrs info as) :
    HasAttrs (dress new info) (as.merge new) := by
  rw [dress_eq h]
  exact .set_self _ _

theorem withAttrs_eq_dress (h : ∃ as, HasAttrs n.info as) :
    n.withAttrs new = .ok (n.withInfo (dress new n.info)) := by
  obtain ⟨as, has⟩ := h
  rw [withAttrs_eq_ok has, dress_eq has]
  rfl

theorem classed_dress (named : new.Named)
    (classes : ∀ v, (.str "class", v) ∈ new → ∃ items, v = .list items) (h : Classed info) :
    Classed (dress new info) := by
  obtain ⟨as, has, lists⟩ := h
  refine ⟨_, hasAttrs_dress new has, fun v hv => ?_⟩
  exact (Record.get?_merge named hv).elim (classes v) (lists v)

theorem classed_set {k : String} (hk : k ≠ "render_attrs") (v : Value) (h : Classed info) :
    Classed (info.set (.str k) v) :=
  h.imp fun _ h => ⟨(hasAttrs_set_of_ne hk v).mpr h.1, h.2⟩

theorem classed_generated : Classed [(generatedKey, .bool true)] := ⟨[], .of_none rfl, nofun⟩

def ofLeaf (leaf : Leaf × Record → Leaf × Record) (raises : Leaf → Bool) : Retouch :=
  ⟨leaf, fun _ info => info, raises⟩

def ofBranch (branch : Container → Record → Record) : Retouch := ⟨id, branch, fun _ => false⟩

theorem ofLeaf_done {s : Stage} {f : Options → Bool → Leaf → Record → StageM (Option Node)}
    {leaf : Leaf × Record → Leaf × Record} {raises : Leaf → Bool}
    (ofStage : s.transformation.visit = Visit.ofLeaf f)
    (visit : ∀ o inLink l info c log, Classed info → ∃ log', (f o inLink l info).outcome ⟨c, log⟩ =
      (.ok (some (.leaf (leaf (l, info)).1 (leaf (l, info)).2)), ⟨c.raise (raises l), log'⟩))
    (kept : ∀ p, Classed p.2 → Classed (leaf p).2) : (ofLeaf leaf raises).DoneBy s where
  visit := by
    intro o inLink n c log classed
    rw [ofStage]
    cases n with
    | leaf l info => exact visit o inLink l info c log classed
    | branch k cs info => exact ⟨log, rfl⟩
    | table header rows al info => exact ⟨log, rfl⟩
  leaf := kept
  branch _ _ h := h

theorem independent_of_shape (leaf : Leaf × Record → Leaf × Record) (raises : Leaf → Bool)
    (branch : Container → Record → Record) : Independent (ofLeaf leaf raises) (ofBranch branch) :=
  ⟨fun _ => rfl, fun _ _ => rfl, fun _ => rfl, fun _ => rfl⟩

def isDiagram : Leaf → Bool
  | .codeBlock _ (some "mermaid") => true
  | _ => false

def diagramAttrs (content : String) : Record :=
  [(.str "class", .list [.str "mermaid"]), (.str "data-clipboard", .str (Json.quoted content))]

def diagramLeaf : Leaf × Record → Leaf × Record
  | (.codeBlock content (some "mermaid"), info) =>
    (.codeBlock content (some "mermaid"), dress (diagramAttrs content) info)
  | p => p

/-- Images whose address has markup of its own become that markup. -/
def embedLeaf (markup : String → Option String) : Leaf × Record → Leaf × Record
  | (.image url alt title, info) =>
    match markup url with
    | some made => (.htmlInline made, [(generatedKey, .bool true)])
    | none => (.image url alt title, info)
  | p => p

def taskInfo : Container → Record → Record
  | .listItem (some _), info =>
    dress [(.str "class", .list [.str "task-list-item"])] (info.set Html.interactiveKey (.bool true))
  | _, info => info

def appClasses (info : Record) : List Value :=
  Stage.Media.addAppClass ((attrsOf info >>= Stage.Media.classesOf).toOption.getD [])

def appLinkInfo : Container → Record → Record
  | .link url _, info =>
    if MediaUrl.isAppLink url then dress [(.str "class", .list (appClasses info))] info else info
  | _, info => info

def diagrams : Retouch := ofLeaf diagramLeaf isDiagram

def embeds (markup : String → Option String) : Retouch := ofLeaf (embedLeaf markup) fun _ => false

def tasks : Retouch := ofBranch taskInfo

def appLinks : Retouch := ofBranch appLinkInfo

theorem diagramLeaf_codeBlock (content : String) (language : Option String) (info : Record) :
    ∃ info', diagramLeaf (.codeBlock content language, info) = (.codeBlock content language, info') := by
  unfold diagramLeaf
  split
  · next heq =>
      cases heq
      exact ⟨_, rfl⟩
  · exact ⟨info, rfl⟩

theorem diagramLeaf_of_ne {l : Leaf} (h : isDiagram l = false) : diagramLeaf (l, info) = (l, info) := by
  unfold diagramLeaf
  split
  · next heq =>
      cases heq
      cases h
  · rfl

theorem isDiagram_diagramLeaf (p : Leaf × Record) : isDiagram (diagramLeaf p).1 = isDiagram p.1 := by
  unfold diagramLeaf
  split <;> rfl

/-- A diagram is done if its render attributes, if there are any, are a map. -/
theorem diagrams_where (o : Options) :
    diagrams.DoneWhere (fun n => diagrams.raisesAt n = true → ∃ as, HasAttrs n.info as)
      (Stage.Blocks.visitDiagram o) where
  visit := by
    intro inLink n c log styled
    cases n with
    | branch k cs info => exact ⟨log, rfl⟩
    | table header rows al info => exact ⟨log, rfl⟩
    | leaf l info =>
        dsimp only [Stage.Blocks.visitDiagram, Visit.ofLeaf]
        split
        · rw [withAttrs_eq_dress (n := .leaf _ info) (styled rfl)]
          exact ⟨_, rfl⟩
        · next other =>
            have plain : isDiagram l = false := by
              unfold isDiagram
              split
              · exact (other _ rfl).elim
              · rfl
            have kept : diagrams.node (.leaf l info) = .leaf l info :=
              congrArg (fun p : Leaf × Record => Node.leaf p.1 p.2) (diagramLeaf_of_ne plain)
            have quiet : diagrams.raisesAt (.leaf l info) = false := plain
            rw [kept, quiet]
            exact ⟨log, rfl⟩
  branch _ _ _ _ h := h
  table _ _ _ _ _ _ h := h

theorem diagrams_done : diagrams.DoneBy Stage.diagrams where
  visit o inLink n c log classed := (diagrams_where o).visit inLink n c log fun _ => classed.attrs
  leaf p classed := by
    change Classed (diagramLeaf p).2
    unfold diagramLeaf
    split
    · exact classed_dress (by simp [Record.Named, diagramAttrs]) (by simp [diagramAttrs]) classed
    · exact classed
  branch _ _ h := h

section Embeds

variable {markup markup' : String → Option String} {url alt made : String} {title : Option String}

theorem embedLeaf_some (h : markup url = some made) :
    embedLeaf markup (.image url alt title, info) = (.htmlInline made, [(generatedKey, .bool true)]) := by
  simp only [embedLeaf, h]

theorem embedLeaf_none (h : markup url = none) :
    embedLeaf markup (.image url alt title, info) = (.image url alt title, info) := by
  simp only [embedLeaf, h]

theorem classed_embedLeaf (p : Leaf × Record) (classed : Classed p.2) :
    Classed (embedLeaf markup p).2 := by
  unfold embedLeaf
  split
  · split
    · exact classed_generated
    · exact classed
  · exact classed

theorem independent_embeds (apart : ∀ url, markup url = none ∨ markup' url = none) :
    Independent (embeds markup) (embeds markup') := by
  refine ⟨?_, fun _ _ => rfl, fun _ => rfl, fun _ => rfl⟩
  rintro ⟨l, info⟩
  cases l with
  | image url alt title =>
      change embedLeaf markup' (embedLeaf markup (.image url alt title, info)) =
        embedLeaf markup (embedLeaf markup' (.image url alt title, info))
      rcases apart url with none | none
      · cases other : markup' url <;> simp only [embedLeaf, none, other]
      · cases other : markup url <;> simp only [embedLeaf, none, other]
  | _ => rfl

theorem independent_diagrams_embeds : Independent diagrams (embeds markup) where
  leaf := by
    rintro ⟨l, info⟩
    change embedLeaf markup (diagramLeaf (l, info)) = diagramLeaf (embedLeaf markup (l, info))
    cases l with
    | image url alt title => cases found : markup url <;> simp only [embedLeaf, diagramLeaf, found]
    | codeBlock content language =>
        obtain ⟨info', same⟩ := diagramLeaf_codeBlock content language info
        change embedLeaf markup (diagramLeaf (.codeBlock content language, info)) =
          diagramLeaf (.codeBlock content language, info)
        rw [same]
        rfl
    | _ => rfl
  branch _ _ := rfl
  kept _ := rfl
  kept' := by
    rintro ⟨l, info⟩
    change isDiagram (embedLeaf markup (l, info)).1 = isDiagram l
    cases l with
    | image url alt title => cases found : markup url <;> simp only [embedLeaf, found, isDiagram]
    | _ => rfl

end Embeds

theorem players_done : (embeds Stage.Media.player?).DoneBy Stage.playerEmbeds := by
  refine ofLeaf_done rfl ?_ classed_embedLeaf
  intro o inLink l info c log _
  cases l with
  | image url alt title =>
      dsimp only
      split
      · next embed found =>
          rw [embedLeaf_some (by rw [Stage.Media.player?, found]; rfl)]
          exact ⟨_, rfl⟩
      · next none =>
          rw [embedLeaf_none (by rw [Stage.Media.player?, none]; rfl)]
          exact ⟨log, rfl⟩
  | _ => exact ⟨log, rfl⟩

theorem statuses_done : (embeds Stage.Media.status?).DoneBy Stage.statusEmbeds := by
  refine ofLeaf_done rfl ?_ classed_embedLeaf
  intro o inLink l info c log _
  cases l with
  | image url alt title =>
      dsimp only
      split
      · next status =>
          rw [embedLeaf_some (if_pos status)]
          exact ⟨_, rfl⟩
      · next other =>
          rw [embedLeaf_none (if_neg other)]
          exact ⟨log, rfl⟩
  | _ => exact ⟨log, rfl⟩

theorem tasks_done : tasks.DoneBy Stage.checkboxes where
  visit := by
    intro o inLink n c log classed
    change ∃ log', (Stage.Blocks.visitTask o inLink n).outcome ⟨c, log⟩ = _
    cases n with
    | leaf l info => exact ⟨log, rfl⟩
    | table header rows al info => exact ⟨log, rfl⟩
    | branch k cs info =>
        cases k with
        | listItem mark =>
            cases mark with
            | none => exact ⟨log, rfl⟩
            | some mark =>
                dsimp only [Stage.Blocks.visitTask]
                have clickable : Classed (info.set Html.interactiveKey (.bool true)) :=
                  classed_set (by decide) _ classed
                rw [withAttrs_eq_dress
                  (n := .branch (.listItem (some mark)) cs (info.set Html.interactiveKey (.bool true)))
                  clickable.attrs]
                exact ⟨log, rfl⟩
        | _ => exact ⟨log, rfl⟩
  leaf _ h := h
  branch := by
    intro k info classed
    change Classed (taskInfo k info)
    unfold taskInfo
    split
    · exact classed_dress (by simp [Record.Named]) (by simp) (classed_set (by decide) _ classed)
    · exact classed

theorem exists_classes (h : Classed info) :
    ∃ classes, attrsOf info >>= Stage.Media.classesOf = .ok classes := by
  obtain ⟨as, has, lists⟩ := h
  rw [has.attrsOf]
  change ∃ classes, Stage.Media.classesOf as = .ok classes
  unfold Stage.Media.classesOf
  split
  · exact ⟨[], rfl⟩
  · next v hv =>
      obtain ⟨items, rfl⟩ := lists v hv
      exact ⟨items, rfl⟩

theorem appLinks_done : appLinks.DoneBy Stage.appLinks where
  visit := by
    intro o inLink n c log classed
    change ∃ log', (Stage.Media.visitAppLink o inLink n).outcome ⟨c, log⟩ = _
    cases n with
    | leaf l info => exact ⟨log, rfl⟩
    | table header rows al info => exact ⟨log, rfl⟩
    | branch k cs info =>
        cases k with
        | link url title =>
            dsimp only [Stage.Media.visitAppLink]
            split
            · next app =>
                obtain ⟨classes, read⟩ := exists_classes (show Classed info from classed)
                have given : (do Stage.Media.classesOf (← (Node.branch (.link url title) cs info).attrs)) =
                    .ok classes := read
                have marked : appLinks.node (.branch (.link url title) cs info) =
                    (Node.branch (.link url title) cs info).withInfo
                      (dress [(.str "class", .list (Stage.Media.addAppClass classes))] info) := by
                  refine congrArg (Node.branch _ cs) ?_
                  change appLinkInfo (.link url title) info = _
                  rw [appLinkInfo, if_pos app, appClasses, read]
                  rfl
                rw [given, marked, StageM.outcome_bind_ok (StageM.outcome_ofExcept_ok _ _),
                  withAttrs_eq_dress (n := .branch (.link url title) cs info) classed.attrs]
                exact ⟨log, rfl⟩
            · next other =>
                have kept : appLinks.node (.branch (.link url title) cs info) =
                    .branch (.link url title) cs info := congrArg (Node.branch _ cs) (if_neg other)
                rw [kept]
                exact ⟨log, rfl⟩
        | _ => exact ⟨log, rfl⟩
  leaf _ h := h
  branch := by
    intro k info classed
    change Classed (appLinkInfo k info)
    unfold appLinkInfo
    split
    · split
      · exact classed_dress (by simp [Record.Named]) (by simp) classed
      · exact classed
    · exact classed

theorem independent_tasks_appLinks : Independent tasks appLinks := by
  refine ⟨fun _ => rfl, fun k info => ?_, fun _ => rfl, fun _ => rfl⟩
  cases k with
  | link url title => rfl
  | listItem mark => rfl
  | _ => rfl

def late : List Retouch :=
  [diagrams, embeds Stage.Media.player?, embeds Stage.Media.status?, tasks, appLinks]

theorem players_or_statuses (url : String) :
    Stage.Media.player? url = none ∨ Stage.Media.status? url = none := by
  rcases MediaUrl.player_or_status url with none | other
  · exact .inl (by rw [Stage.Media.player?, none]; rfl)
  · exact .inr (if_neg (by rw [other]; exact Bool.false_ne_true))

theorem Independent.refl (t : Retouch) (kept : ∀ p, t.raises (t.leaf p).1 = t.raises p.1) :
    Independent t t := ⟨fun _ => rfl, fun _ _ => rfl, kept, kept⟩

theorem late_independent : ∀ t ∈ late, ∀ u ∈ late, Independent t u := by
  have : Std.Symm Independent := ⟨fun _ _ h => h.symm⟩
  refine List.Pairwise.forall_of_forall ?_ ?_
  · simp only [late, List.forall_mem_cons, List.not_mem_nil, false_implies, implies_true, and_true]
    exact ⟨.refl _ isDiagram_diagramLeaf, .refl _ fun _ => rfl, .refl _ fun _ => rfl,
      .refl _ fun _ => rfl, .refl _ fun _ => rfl⟩
  · simp only [late, List.pairwise_cons, List.forall_mem_cons, List.not_mem_nil, false_implies,
      implies_true, and_true, List.Pairwise.nil]
    exact ⟨⟨independent_diagrams_embeds, independent_diagrams_embeds, independent_of_shape _ _ _,
        independent_of_shape _ _ _⟩,
      ⟨independent_embeds players_or_statuses, independent_of_shape _ _ _, independent_of_shape _ _ _⟩,
      ⟨independent_of_shape _ _ _, independent_of_shape _ _ _⟩, independent_tasks_appLinks⟩

end Retouch

namespace Pipeline

/-- The stages that run after the callouts and the block references, and the one about diagrams. -/
def lateStages : List Stage :=
  [Stage.diagrams, Stage.playerEmbeds, Stage.statusEmbeds, Stage.checkboxes, Stage.appLinks]

theorem lateStages_done : List.Forall₂ (fun s t => Retouch.DoneBy t s) lateStages Retouch.late :=
  .cons Retouch.diagrams_done <| .cons Retouch.players_done <| .cons Retouch.statuses_done <|
    .cons Retouch.tasks_done <| .cons Retouch.appLinks_done .nil

/-- In every order the late stages make the same document of a document, and leave the same
context. -/
theorem late_stages_in_any_order (o : Options) (d : Node) (c : Context) (document : d.kind = .document)
    (classed : ∀ n ∈ d.nodes, Classed n.info) :
    ∃ m c', ∀ order : List Stage, order.Perm lateStages → ∀ log, ∃ log',
      (runStages o d c order).run log = ((.ok m, c'), log') :=
  Retouch.runStages_perm lateStages_done Retouch.late_independent o c document classed

/-- Something for every late stage, with attributes that are there before. -/
def embeddingNote : Node :=
  .branch .document
    [.leaf (.codeBlock "graph" (some "mermaid"))
      [(attrsKey, .map [(.str "id", .int 1), (.str "class", .list [.str "a"])])],
     .branch (.list false 1 true) [.branch (.listItem (some .checked)) [.branch .paragraph
      [.branch (.link "Obsidian://open" none) [.leaf (.image "https://x.com/a/status/1" "" none) []]
        [(attrsKey, .map [(.str "class", .list [.str "b"])])],
       .leaf (.image "http://M.youtube.com/?list=b" "" none) []] []] []] []] []

theorem embeddingNote_in_any_order :
    ∃ m c log log', (runStages Options.defaults embeddingNote (Context.new "n" none) lateStages).run [] =
        ((.ok m, c), log) ∧
      (runStages Options.defaults embeddingNote (Context.new "n" none) lateStages.reverse).run [] =
        ((.ok m, c), log') := by
  obtain ⟨m, c, same⟩ := late_stages_in_any_order Options.defaults embeddingNote
    (Context.new "n" none) rfl (by decide)
  obtain ⟨log, first⟩ := same lateStages (.refl _) []
  obtain ⟨log', second⟩ := same lateStages.reverse (List.reverse_perm _) []
  exact ⟨m, c, log, log', first, second⟩

end Pipeline

end NoteMarkup
