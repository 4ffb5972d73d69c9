import NoteMarkup.Proofs.Attributes
import NoteMarkup.Proofs.Tree
import NoteMarkup.Stage.Catalog

/-! What each built-in stage can do to one node whose children are done. A relation for each stage
lists the replacements, and one lemma says that a visit gives one of them or stops at a fault that
the lemma names. No built-in stage drops a node. -/

namespace NoteMarkup.Stage

open Node

variable {o : Options} {inLink : Bool} {n : Node} {r : Run} {stuck : Prop}

/-- The visit puts a node that `Rewrites` allows in the place of `n`. -/
abbrev Visited (x : StageM (Option Node)) (r : Run) (Rewrites : Node → Prop) (stuck : Prop) : Prop :=
  x.Yields r (fun k _ => ∃ m, k = some m ∧ Rewrites m) stuck

theorem Visited.keep {Rewrites : Node → Prop} (h : Rewrites n) :
    Visited (pure (some n)) r Rewrites stuck := .pure ⟨n, rfl, h⟩

theorem Visited.imp {x : StageM (Option Node)} {Rewrites Q : Node → Prop}
    (h : Visited x r Rewrites stuck) (imp : ∀ m, Rewrites m → Q m) : Visited x r Q stuck :=
  h.mono fun _ _ ⟨m, hm, rewritten⟩ => ⟨m, hm, imp m rewritten⟩

theorem Visited.and {x : StageM (Option Node)} {Rewrites Q : Node → Prop}
    (h : Visited x r Rewrites stuck) (h' : Visited x r Q True) :
    Visited x r (fun m => Rewrites m ∧ Q m) stuck := by
  refine (StageM.Yields.and h h').mono ?_
  rintro _ _ ⟨⟨m, rfl, rewritten⟩, _, ⟨⟩, more⟩
  exact ⟨m, rfl, rewritten, more⟩

theorem Visited.withAttrs {Rewrites : Node → Prop} {new : Record}
    (styled : ∀ as, HasAttrs n.info as → Rewrites (n.styled as new))
    (unstyled : (¬ ∃ as, HasAttrs n.info as) → stuck) :
    Visited (some <$> StageM.ofExcept (n.withAttrs new)) r Rewrites stuck := by
  refine .map ((withAttrs_yields unstyled).mono ?_)
  rintro m s ⟨-, as, has, rfl⟩
  exact ⟨_, rfl, styled as has⟩

namespace Links

/-- What a reference turns into. -/
inductive Replacement : Node → Prop
  | link (r : LinkResolution) : Replacement (linkNode r)
  | image (url : String) (d : ImageLabel.Display) :
      Replacement ((Node.leaf (.image url "" none) []).styled []
        [(.str "width", .str d.width), (.str "height", .str d.height), (.str "alt", .str d.alt)])
  | video (url : String) : Replacement (generatedInline (mediaMarkup "video" url))
  | audio (url : String) : Replacement (generatedInline (mediaMarkup "audio" url))
  | pdf (url : String) : Replacement
      (generatedInline ("<iframe src=\"" ++ Html.escape url ++ "\" class=\"pdf\"></iframe>"))
  | transclude (url : String) (anchor label : Option String) :
      Replacement (.leaf (.htmlInline (transcludeMarkup url anchor label))
        [(generatedKey, .bool true), (.str "transclude", .bool true)])

inductive Rewrites (n : Node) : Node → Prop
  | keep : n.kind ≠ .wikiLink → Rewrites n n
  | reference {m} : n.kind = .wikiLink → Replacement m → Rewrites n m

theorem resolveM_yields (target : String) (anchor label : Option String) :
    (resolveM target anchor label o).Yields r (fun _ _ => True) stuck := by
  unfold resolveM
  refine .bind_context ?_
  dsimp only
  split
  · exact .bind_debug fun _ => .pure trivial
  · exact .pure trivial

theorem embed_yields (target : String) (anchor label : Option String) :
    (embed target anchor label).Yields r (fun m _ => Replacement m) stuck := by
  unfold embed
  dsimp only
  split
  · rw [withAttrs_eq_ok (.of_none rfl)]
    exact .pure (.image _ _)
  · exact .pure (.video _)
  · exact .pure (.audio _)
  · exact .pure (.pdf _)
  · exact .bind_debug fun _ => .pure (.transclude _ _ _)

theorem replace_yields (ref : Reference) :
    (replace ref o).Yields r (fun m _ => Replacement m) stuck := by
  unfold replace
  dsimp only
  split
  · exact embed_yields _ _ _
  · exact (resolveM_yields _ _ _).bind fun res _ _ => .pure (.link res)

theorem visit_yields : Visited (visit o inLink n) r (Rewrites n) stuck := by
  cases n with
  | leaf l info =>
      cases l with
      | wikiLink ref =>
          refine .map ((replace_yields ref).mono fun m _ hm => ?_)
          exact ⟨m, rfl, .reference rfl hm⟩
      | _ => exact .keep (.keep (by rintro ⟨⟩))
  | branch c cs info => exact .keep (.keep (by cases c <;> rintro ⟨⟩))
  | table header rows al info => exact .keep (.keep (by rintro ⟨⟩))

end Links

namespace Highlights

inductive Rewrites : Node → Node → Prop
  | keep {n : Node} : n.kind ≠ .highlight → Rewrites n n
  | span {content info} : Rewrites (.branch .highlight content info) (replace content)

theorem visit_yields : Visited (visit o inLink n) r (Rewrites n) stuck := by
  cases n with
  | leaf l info => exact .keep (.keep (by cases l <;> rintro ⟨⟩))
  | branch c cs info =>
      cases c with
      | highlight => exact .keep .span
      | _ => exact .keep (.keep (by rintro ⟨⟩))
  | table header rows al info => exact .keep (.keep (by rintro ⟨⟩))

end Highlights

namespace Tags

inductive Rewrites : Node → Node → Prop
  | keep {n : Node} : n.kind ≠ .tag → Rewrites n n
  | text {value info} : Rewrites (.leaf (.tag value) info) (Node.ofText ("#" ++ value))
  | link {value info} (context : Context) :
      Rewrites (.leaf (.tag value) info) (linkNode context (Slug.ofTag value))

theorem register_yields (value : String) :
    (register value).Yields r (fun slug _ => slug = Slug.ofTag value) stuck := by
  unfold register
  refine .bind_context ?_
  dsimp only
  split
  · exact .bind_modifyContext (.bind_debug fun _ => .pure rfl)
  · exact .pure rfl

theorem visit_yields : Visited (visit o inLink n) r (Rewrites n) stuck := by
  cases n with
  | leaf l info =>
      cases l with
      | tag value =>
          refine .map ?_
          unfold replace
          split
          · exact .pure ⟨_, rfl, .text⟩
          · refine (register_yields value).bind ?_
            rintro _ s rfl
            exact .bind_context (.pure ⟨_, rfl, .link s.context⟩)
      | _ => exact .keep (.keep (by rintro ⟨⟩))
  | branch c cs info => exact .keep (.keep (by cases c <;> rintro ⟨⟩))
  | table header rows al info => exact .keep (.keep (by rintro ⟨⟩))

end Tags

namespace RawMarkup

/-- Markup that no stage made gets another text; its place and its information stay. -/
inductive Rewrites : Node → Node → Prop
  | keep {n : Node} : (n.kind = .htmlBlock ∨ n.kind = .htmlInline → isGenerated n.info = true) →
      Rewrites n n
  | block {content info} (new : String) : isGenerated info = false →
      Rewrites (.leaf (.htmlBlock content) info) (.leaf (.htmlBlock new) info)
  | inline {content info} (new : String) : isGenerated info = false →
      Rewrites (.leaf (.htmlInline content) info) (.leaf (.htmlInline new) info)

theorem resolveLinks_yields (s : List Char) :
    (resolveLinks o s).Yields r (fun _ _ => True) stuck := by
  unfold resolveLinks
  refine (StageM.Yields.mapM (fun _ => True) ?_).bind fun _ _ _ => .pure trivial
  intro piece _ r
  cases piece with
  | gap cs => exact .pure trivial
  | reference ref source =>
      dsimp only
      split
      · exact .pure trivial
      · exact (Links.resolveM_yields _ _ _).bind fun _ _ _ => .pure trivial

theorem resolveTags_yields (s : List Char) : (resolveTags s).Yields r (fun _ _ => True) stuck := by
  unfold resolveTags
  refine (StageM.Yields.mapM (fun _ => True) ?_).bind fun _ _ _ => .pure trivial
  intro piece _ r
  cases piece with
  | gap c => exact .pure trivial
  | tag value =>
      dsimp only
      split
      · exact .pure trivial
      · exact (Tags.register_yields _).bind fun _ _ _ => .bind_context (.pure trivial)

theorem resolve_yields (html : String) : (resolve o html).Yields r (fun _ _ => True) stuck := by
  -- the last pass, on the text that the passes before it leave
  have last : ∀ s r, (if o.enabled .parseTags = true then do
      let s ← resolveTags s
      pure (String.ofList s) else pure (String.ofList s)).Yields r (fun _ _ => True) stuck := by
    intro s r
    split
    · exact (resolveTags_yields s).bind fun _ _ _ => .pure trivial
    · exact .pure trivial
  unfold resolve
  dsimp only
  split
  · refine (resolveLinks_yields _).bind fun s r _ => ?_
    split <;> exact last _ _
  · split <;> exact last _ _

theorem visit_yields : Visited (visit o inLink n) r (Rewrites n) stuck := by
  cases n with
  | leaf l info =>
      cases l with
      | htmlBlock content =>
          dsimp only [visit, Visit.ofLeaf]
          split
          · next made => exact .keep (.keep fun _ => made)
          · next made =>
              refine (resolve_yields content).bind fun new _ _ => ?_
              exact .pure ⟨_, rfl, .block new (Bool.eq_false_iff.mpr made)⟩
      | htmlInline content =>
          dsimp only [visit, Visit.ofLeaf]
          split
          · next made => exact .keep (.keep fun _ => made)
          · next made =>
              refine (resolve_yields content).bind fun new _ _ => ?_
              exact .pure ⟨_, rfl, .inline new (Bool.eq_false_iff.mpr made)⟩
      | _ => exact .keep (.keep (by rintro (⟨⟨⟩⟩ | ⟨⟨⟩⟩)))
  | branch c cs info => exact .keep (.keep (by cases c <;> rintro (⟨⟨⟩⟩ | ⟨⟨⟩⟩)))
  | table header rows al info => exact .keep (.keep (by rintro (⟨⟨⟩⟩ | ⟨⟨⟩⟩)))

end RawMarkup

namespace Media

/-- An image turns into raw markup, or stays. -/
inductive Rewrites (markup : String → Option String) : Node → Node → Prop
  | keep {n : Node} : (∀ url alt title info, n = .leaf (.image url alt title) info → markup url = none) →
      Rewrites markup n n
  | embed {url alt title info made} : markup url = some made →
      Rewrites markup (.leaf (.image url alt title) info) (generatedInline made)

/-- The markup for the address of a video file. -/
def video? (url : String) : Option String :=
  if MediaUrl.isVideo url then some (MediaUrl.videoMarkup url) else none

/-- The markup for an address of the player site. -/
def player? (url : String) : Option String := (MediaUrl.playerEmbed? url).map MediaUrl.playerMarkup

/-- The markup for the address of a status message. -/
def status? (url : String) : Option String :=
  if MediaUrl.isStatus url then some (MediaUrl.statusMarkup url) else none

theorem visitVideo_yields : Visited (visitVideo o inLink n) r (Rewrites video? n) stuck := by
  cases n with
  | leaf l info =>
      cases l with
      | image url alt title =>
          dsimp only [visitVideo, Visit.ofLeaf]
          split
          · next h => exact .bind_debug fun _ => .pure ⟨_, rfl, .embed (if_pos h)⟩
          · next h => exact .keep (.keep (by rintro _ _ _ _ ⟨⟩; exact if_neg h))
      | _ => exact .keep (.keep (by rintro _ _ _ _ ⟨⟩))
  | _ => exact .keep (.keep (by rintro _ _ _ _ ⟨⟩))

theorem visitPlayer_yields : Visited (visitPlayer o inLink n) r (Rewrites player? n) stuck := by
  cases n with
  | leaf l info =>
      cases l with
      | image url alt title =>
          dsimp only [visitPlayer, Visit.ofLeaf]
          split
          · next embed h =>
              exact .bind_debug fun _ => .pure ⟨_, rfl, .embed (by rw [player?, h]; rfl)⟩
          · next h => exact .keep (.keep (by rintro _ _ _ _ ⟨⟩; rw [player?, h]; rfl))
      | _ => exact .keep (.keep (by rintro _ _ _ _ ⟨⟩))
  | _ => exact .keep (.keep (by rintro _ _ _ _ ⟨⟩))

theorem visitStatus_yields : Visited (visitStatus o inLink n) r (Rewrites status? n) stuck := by
  cases n with
  | leaf l info =>
      cases l with
      | image url alt title =>
          dsimp only [visitStatus, Visit.ofLeaf]
          split
          · next h => exact .bind_debug fun _ => .pure ⟨_, rfl, .embed (if_pos h)⟩
          · next h => exact .keep (.keep (by rintro _ _ _ _ ⟨⟩; exact if_neg h))
      | _ => exact .keep (.keep (by rintro _ _ _ _ ⟨⟩))
  | _ => exact .keep (.keep (by rintro _ _ _ _ ⟨⟩))

/-- A link into the application gets a class. -/
inductive AppLinked : Node → Node → Prop
  | keep {n : Node} :
      (∀ url title cs info, n = .branch (.link url title) cs info → MediaUrl.isAppLink url = false) →
      AppLinked n n
  | mark {url title cs info as classes} : MediaUrl.isAppLink url = true → HasAttrs info as →
      classesOf as = .ok classes →
      AppLinked (.branch (.link url title) cs info)
        ((Node.branch (.link url title) cs info).styled as
          [(.str "class", .list (addAppClass classes))])

theorem visitAppLink_yields
    (unstyled : (¬ ∃ as, HasAttrs n.info as) → stuck)
    (unclassed : ∀ as e, HasAttrs n.info as → classesOf as = .error e → stuck) :
    Visited (visitAppLink o inLink n) r (AppLinked n) stuck := by
  cases n with
  | leaf l info => exact .keep (.keep nofun)
  | table header rows al info => exact .keep (.keep nofun)
  | branch c cs info =>
      cases c with
      | link url title =>
          dsimp only [visitAppLink]
          split
          · next app =>
              by_cases has : ∃ as, HasAttrs info as
              · obtain ⟨as, has⟩ := has
                have attrs : (Node.branch (.link url title) cs info).attrs = .ok as := has.attrsOf
                rw [attrs]
                refine .bind_ofExcept ?_ fun e h => unclassed as e has h
                intro classes h
                rw [withAttrs_eq_ok (n := .branch (.link url title) cs info) has]
                exact .pure ⟨_, rfl, .mark app has h⟩
              · refine .bind_ofExcept ?_ fun _ _ => unstyled has
                intro classes _
                refine (withAttrs_yields unstyled).bind fun m s hm => ?_
                exact (has (hm.2.imp fun as h => h.1)).elim
          · next other => exact .keep (.keep (by rintro _ _ _ _ ⟨⟩; simpa using other))
      | _ => exact .keep (.keep nofun)

end Media

namespace Callouts

/-- Children that open a callout start with a paragraph whose first text holds the directive. -/
theorem opening?_eq_some {cs : List Node} {opening : Opening} (h : opening? cs = some opening) :
    ∃ content textInfo info,
      cs = .branch .paragraph (.leaf (.text content) textInfo :: opening.siblings) info ::
        opening.rest := by
  unfold opening? at h
  split at h
  · next content textInfo siblings info rest =>
      obtain ⟨d, -, rfl⟩ := Option.map_eq_some_iff.mp h
      exact ⟨content, textInfo, info, rfl⟩
  · cases h

/-- The information on a rebuilt quote holds the directive. -/
theorem get?_calloutKey (info : Record) (v w : Value) :
    ((info.set calloutKey v).set attrsKey w).get? calloutKey = some v := by
  rw [attrsKey, calloutKey, Record.get?_set_of_ne (by decide), Record.get?_set_self]

theorem mem_body {opening : Opening} {title : String} {m : Node} (h : m ∈ body opening title) :
    m = Node.generatedBlock (Callout.titleMarkup ("<p>" ++ title ++ "</p>")
      opening.directive.collapsible) ∨
    m = Node.paragraph [Node.ofText opening.remaining] ∨ m = wrapper opening.rest := by
  unfold body at h
  rcases List.mem_append.mp h with front | last
  · rcases List.mem_append.mp front with first | second
    · exact .inl (List.mem_singleton.mp first)
    · split at second
      · cases second
      · exact .inr (.inl (List.mem_singleton.mp second))
  · split at last
    · cases last
    · exact .inr (.inr (List.mem_singleton.mp last))

/-- The node is a quote that opens a callout and has not been rebuilt. -/
def opens : Node → Bool
  | .branch .blockQuote cs info => !info.has calloutKey && (opening? cs).isSome
  | _ => false

/-- A quote that opens a callout is rebuilt around its rendered title; every other node stays. -/
inductive Rewrites : Node → Node → Prop
  | keep {n : Node} : opens n = false → Rewrites n n
  | rebuild {cs : List Node} {info : Record} {o : Opening} {title : String} {as : Record} :
      info.has calloutKey = false → opening? cs = some o →
      Html.ofInline (titleNodes o.directive o.siblings) = .ok title → HasAttrs info as →
      Rewrites (.branch .blockQuote cs info)
        ((Node.branch .blockQuote (body o title) (info.set calloutKey o.directive.toValue)).styled
          as o.directive.attributes)

theorem rebuild_yields {cs : List Node} {info : Record} {opening : Opening}
    (unkeyed : info.has calloutKey = false) (opens : opening? cs = some opening)
    (untitled : ∀ e, Html.ofInline (titleNodes opening.directive opening.siblings) = .error e → stuck)
    (unstyled : (¬ ∃ as, HasAttrs info as) → stuck) :
    (rebuild opening info).Yields r (fun m _ => Rewrites (.branch .blockQuote cs info) m) stuck := by
  unfold rebuild
  refine .bind_ofExcept ?_ untitled
  intro title rendered
  refine .bind_context (.bind_debug fun log => ?_)
  have attrs : ∀ as, HasAttrs (info.set calloutKey opening.directive.toValue) as ↔ HasAttrs info as :=
    fun as => hasAttrs_set_of_ne (by decide) _
  refine (withAttrs_yields ?_).mono ?_
  · intro none
    exact unstyled fun ⟨as, has⟩ => none ⟨as, (attrs as).mpr has⟩
  · rintro m _ ⟨-, as, has, rfl⟩
    exact .rebuild unkeyed opens rendered ((attrs as).mp has)

theorem visit_yields
    (untitled : ∀ cs opening e, n.children = cs → opening? cs = some opening →
      Html.ofInline (titleNodes opening.directive opening.siblings) = .error e → stuck)
    (unstyled : (¬ ∃ as, HasAttrs n.info as) → stuck) :
    Visited (visit o inLink n) r (Rewrites n) stuck := by
  cases n with
  | leaf l info => exact .keep (.keep rfl)
  | table header rows al info => exact .keep (.keep rfl)
  | branch c cs info =>
      cases c with
      | blockQuote =>
          dsimp only [visit]
          split
          · next keyed => exact .keep (.keep (by rw [opens, keyed]; rfl))
          · next unkeyed =>
              have unkeyed : info.has calloutKey = false := Bool.eq_false_iff.mpr unkeyed
              split
              · next opening opens =>
                  refine .map ((rebuild_yields unkeyed opens ?_ unstyled).mono
                    fun m _ hm => ⟨m, rfl, hm⟩)
                  exact fun e he => untitled cs opening e rfl opens he
              · next closed => exact .keep (.keep (by rw [opens, closed, Bool.and_comm]; rfl))
      | _ => exact .keep (.keep rfl)

theorem visit_of_not_opens (h : opens n = false) (inLink : Bool) (r : Run) :
    (visit o inLink n).outcome r = (.ok (some n), r) := by
  cases n with
  | leaf l info => rfl
  | table header rows al info => rfl
  | branch c cs info =>
      cases c with
      | blockQuote =>
          dsimp only [visit]
          split
          · rfl
          · next unkeyed =>
              split
              · next opening opened =>
                  rw [opens, opened, Bool.eq_false_iff.mpr unkeyed] at h
                  cases h
              · rfl
      | _ => rfl

end Callouts

namespace Blocks

/-- A code block of the diagram language gets a class and its source. -/
inductive DiagramMarked : Node → Node → Prop
  | keep {n : Node} : DiagramMarked n n
  | mark {content : String} {info as : Record} : HasAttrs info as →
      DiagramMarked (.leaf (.codeBlock content (some "mermaid")) info)
        ((Node.leaf (.codeBlock content (some "mermaid")) info).styled as
          [(.str "class", .list [.str "mermaid"]),
           (.str "data-clipboard", .str (Json.quoted content))])

theorem visitDiagram_yields (unstyled : (¬ ∃ as, HasAttrs n.info as) → stuck) :
    Visited (visitDiagram o inLink n) r (DiagramMarked n) stuck := by
  cases n with
  | leaf l info =>
      dsimp only [visitDiagram, Visit.ofLeaf]
      split
      · refine .bind_modifyContext (.bind_context (.bind_debug fun log => ?_))
        exact Visited.withAttrs (fun as has => .mark has) unstyled
      · exact .keep .keep
  | _ => exact .keep .keep

/-- The item of a task gets a class, and its box can be clicked. -/
inductive TaskMarked : Node → Node → Prop
  | keep {n : Node} : TaskMarked n n
  | mark {state : TaskMark} {cs : List Node} {info as : Record} : HasAttrs info as →
      TaskMarked (.branch (.listItem (some state)) cs info)
        ((Node.branch (.listItem (some state)) cs
            (info.set Html.interactiveKey (.bool true))).styled
          as [(.str "class", .list [.str "task-list-item"])])

theorem visitTask_yields (unstyled : (¬ ∃ as, HasAttrs n.info as) → stuck) :
    Visited (visitTask o inLink n) r (TaskMarked n) stuck := by
  cases n with
  | leaf l info => exact .keep .keep
  | table header rows al info => exact .keep .keep
  | branch c cs info =>
      dsimp only [visitTask]
      split
      · next mark cs info heq =>
          obtain ⟨rfl, rfl, rfl⟩ := heq
          have attrs : ∀ as, HasAttrs (info.set Html.interactiveKey (.bool true)) as ↔
              HasAttrs info as := fun as => hasAttrs_set_of_ne (by decide) _
          refine Visited.withAttrs (fun as has => .mark ((attrs as).mp has)) ?_
          intro none
          exact unstyled fun ⟨as, has⟩ => none ⟨as, (attrs as).mpr has⟩
      · exact .keep .keep

/-- What handing on ids does to a block: it loses a marker, or gets an id. -/
inductive Touched (n : Node) : Node → Prop
  | refl : Touched n n
  | unmarked {m : Node} : Touched n m → Touched n (m.withInfo (m.info.erase markerKey))
  | named {m : Node} {as : Record} {id : Value} : Touched n m → HasAttrs m.info as →
      id.isKey = true → Touched n (m.styled as [(idKey, id)])

theorem register_yields {m : Node} {id : Value} (unusable : id.isKey = false → stuck)
    (unstyled : (¬ ∃ as, HasAttrs m.info as) → stuck) :
    (register m id).Yields r (fun named s => id.isKey = true ∧ s.context = r.context.setBlock id named ∧
      ∃ as, HasAttrs m.info as ∧ named = m.styled as [(idKey, id)]) stuck := by
  unfold register
  dsimp only
  split
  · next unkeyed =>
      exact .bind_throw (unusable (by simpa using unkeyed))
  · next keyed =>
      have keyed : id.isKey = true := by simpa using keyed
      refine .bind_context ?_
      -- the block is named in the same way after a duplicate has been reported
      by_cases has : ∃ as, HasAttrs m.info as
      · obtain ⟨as, has⟩ := has
        rw [withAttrs_eq_ok has]
        dsimp only
        split
        · exact .bind_debug fun _ => .bind_modifyContext (.pure ⟨keyed, rfl, as, has, rfl⟩)
        · exact .bind_modifyContext (.pure ⟨keyed, rfl, as, has, rfl⟩)
      · obtain ⟨e, he⟩ := withAttrs_error [(idKey, id)] has
        rw [he]
        dsimp only
        split
        · exact .bind_debug fun _ => .bind_modifyContext (.throw (unstyled has))
        · exact .bind_modifyContext (.throw (unstyled has))

/-- The fault of handing on ids among blocks: an id that is no key, or attributes that are no map. -/
def Unnameable (ns : List Node) : Prop :=
  ∃ n ∈ ns, ((n.info.get? markerKey).getD .null).isKey = false ∨ ¬ ∃ as, HasAttrs n.info as

theorem Touched.hasAttrs {m : Node} (h : Touched n m) (has : ∃ as, HasAttrs n.info as) :
    ∃ as, HasAttrs m.info as := by
  induction h with
  | refl => exact has
  | unmarked _ ih =>
      obtain ⟨as, has⟩ := ih
      rw [info_withInfo]
      exact ⟨as, (hasAttrs_erase_of_ne (by decide)).mpr has⟩
  | named _ _ _ ih =>
      rw [styled, info_withInfo]
      exact ⟨_, .set_self _ _⟩

/-- Handing on ids touches the blocks of a list and drops some of them. -/
theorem attach_yields {source : List Node} (fault : Unnameable source → stuck) :
    ∀ (ns done : List Node) (r : Run), (∀ m ∈ ns, m ∈ source) →
      (∀ m ∈ done, ∃ n ∈ source, Touched n m) →
      (attach done ns).Yields r (fun out _ => ∀ m ∈ out, ∃ n ∈ source, Touched n m) stuck := by
  intro ns
  induction ns with
  | nil =>
      intro done r _ touched
      refine .pure fun m hm => touched m ?_
      exact List.mem_reverse.mp hm
  | cons n ns ih =>
      intro done r subset touched
      have ofSource : n ∈ source := subset n List.mem_cons_self
      have later : ∀ m ∈ ns, m ∈ source := fun m hm => subset m (List.mem_cons_of_mem _ hm)
      have plain : ∃ k ∈ source, Touched k (n.withInfo (n.info.erase markerKey)) :=
        ⟨n, ofSource, .unmarked .refl⟩
      unfold attach
      dsimp only
      split
      · exact ih _ r later (List.forall_mem_cons.mpr ⟨plain, touched⟩)
      · exact ih _ r later (List.forall_mem_cons.mpr ⟨plain, by simp⟩)
      · next last before _ =>
          obtain ⟨⟨k, hk, ofLast⟩, ofBefore⟩ := List.forall_mem_cons.mp touched
          refine (register_yields ?_ ?_).bind ?_
          · intro unkeyed
            exact fault ⟨n, ofSource, .inl unkeyed⟩
          · intro none
            by_cases has : ∃ as, HasAttrs k.info as
            · exact (none (ofLast.hasAttrs has)).elim
            · exact fault ⟨k, hk, .inr has⟩
          · rintro _ s ⟨keyed, -, as, has, rfl⟩
            refine ih _ s later (List.forall_mem_cons.mpr ⟨?_, ofBefore⟩)
            exact ⟨k, hk, .named ofLast has keyed⟩

/-- The containers that hand on ids among their children. -/
def handsOn : Container → Bool
  | .document | .blockQuote | .listItem _ => true
  | _ => false

/-- What reading markers does to a node. -/
inductive Marked : Node → Node → Prop
  | keep {n : Node} : Marked n n
  | deferred {content : List Node} {info : Record} (id : String) :
      Marked (.branch .paragraph content info)
        (.branch .paragraph content (info.set markerKey (.str id)))
  | paragraph {content last : List Node} {info as : Record} (id : String) :
      (∀ m ∈ last, ∃ t, m = Node.ofText t) → HasAttrs info as →
      Marked (.branch .paragraph content info)
        ((Node.branch .paragraph (content.dropLast ++ last) info).styled as [(idKey, .str id)])
  | handedOn {c : Container} {cs out : List Node} {info : Record} : handsOn c = true →
      (∀ m ∈ out, ∃ n ∈ cs, Touched n m) → Marked (.branch c cs info) (.branch c out info)
  | adopted {mark : Option TaskMark} {cs content rest : List Node}
      {info firstInfo attrs as : Record} {id : Value} :
      (∀ m ∈ .branch .paragraph content firstInfo :: rest, ∃ n ∈ cs, Touched n m) →
      attrsOf firstInfo = .ok attrs → attrs.get? idKey = some id → id.isKey = true →
      HasAttrs info as →
      Marked (.branch (.listItem mark) cs info)
        ((Node.branch (.listItem mark) (.branch .paragraph content
            (firstInfo.set attrsKey (.map (attrs.erase idKey))) :: rest) info).styled
          as [(idKey, id)])

theorem markParagraph_yields {content : List Node} {info : Record}
    (unstyled : (¬ ∃ as, HasAttrs info as) → stuck) :
    (markParagraph content info).Yields r
      (fun m _ => Marked (.branch .paragraph content info) m) stuck := by
  unfold markParagraph
  dsimp only
  split
  · next text _ _ =>
      split
      · exact .pure .keep
      · next marker _ =>
          split
          · exact .pure (.deferred _)
          · refine (register_yields ?_ ?_).mono ?_
            · rintro ⟨⟩
            · exact unstyled
            · rintro m s ⟨-, -, as, has, rfl⟩
              refine .paragraph marker.id ?_ has
              split
              · simp
              · simp
  · exact .pure .keep

theorem adoptId_yields {mark : Option TaskMark} {cs out : List Node} {info : Record}
    (touched : ∀ m ∈ out, ∃ n ∈ cs, Touched n m)
    (unstyled : (¬ ∃ as, HasAttrs info as) → stuck)
    (unreadable : ∀ k ∈ cs, ∀ m e, Touched k m → attrsOf m.info = .error e → stuck)
    (unkeyed : ∀ k ∈ cs, ∀ m attrs id, Touched k m → attrsOf m.info = .ok attrs →
      attrs.get? idKey = some id → id.isKey = false → stuck) :
    (adoptId mark out info).Yields r
      (fun m _ => Marked (.branch (.listItem mark) cs info) m) stuck := by
  unfold adoptId
  dsimp only
  split
  · next content firstInfo rest =>
      obtain ⟨k, hk, first⟩ := touched _ List.mem_cons_self
      refine .bind_ofExcept ?_ fun e he => unreadable k hk _ e first he
      intro attrs readable
      split
      · exact .pure (.handedOn rfl touched)
      · next id present =>
          have ofFirst : attrs.get? idKey = some ((attrs.get? idKey).getD .null) := by
            cases h : attrs.get? idKey with
            | none => exact (present (by rw [h]; rfl)).elim
            | some v => rfl
          split
          · next bad =>
              refine .bind_throw ?_
              exact unkeyed k hk _ attrs _ first readable ofFirst (by simpa using bad)
          · next keyed =>
              refine .bind_modifyContext ?_
              refine (register_yields ?_ ?_).mono ?_
              · intro bad
                exact (keyed (by rw [bad]; rfl)).elim
              · exact unstyled
              · rintro m _ ⟨keyed, -, as, has, rfl⟩
                exact .adopted touched readable ofFirst keyed has
  · exact .pure (.handedOn rfl touched)

theorem visitMarker_yields
    (unstyled : (¬ ∃ as, HasAttrs n.info as) → stuck)
    (unnameable : Unnameable n.children → stuck)
    (unreadable : ∀ k ∈ n.children, ∀ m e, Touched k m → attrsOf m.info = .error e → stuck)
    (unkeyed : ∀ k ∈ n.children, ∀ m attrs id, Touched k m → attrsOf m.info = .ok attrs →
      attrs.get? idKey = some id → id.isKey = false → stuck) :
    Visited (visitMarker o inLink n) r (Marked n) stuck := by
  cases n with
  | leaf l info => exact .keep .keep
  | table header rows al info => exact .keep .keep
  | branch c cs info =>
      have attached := attach_yields unnameable cs [] r (fun _ h => h) (by simp)
      cases c with
      | paragraph => exact .map ((markParagraph_yields unstyled).mono fun m _ h => ⟨m, rfl, h⟩)
      | document => exact attached.bind fun out _ h => .pure ⟨_, rfl, .handedOn rfl h⟩
      | blockQuote => exact attached.bind fun out _ h => .pure ⟨_, rfl, .handedOn rfl h⟩
      | listItem mark =>
          refine attached.bind fun out _ h => .map ?_
          exact (adoptId_yields h unstyled unreadable unkeyed).mono fun m _ h => ⟨m, rfl, h⟩
      | _ => exact .keep .keep

end Blocks

end NoteMarkup.Stage
