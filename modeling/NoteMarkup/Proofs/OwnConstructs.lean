import NoteMarkup.Proofs.UnalteredMarkup
import NoteMarkup.Proofs.Visits

/-! Each stage changes nothing but its own constructs. A tree that holds none of them comes back as it
is, with the state as it was. -/

namespace NoteMarkup.Stage

open Node StageM

variable {o : Options} {c : Context} {inLink : Bool} {n : Node} {r : Run}

namespace RawMarkup

/-- The text that raw markup gets. -/
def rewritten (o : Options) (c : Context) (html : String) : String :=
  match ((resolve o html).outcome ⟨c, []⟩).1 with
  | .ok text => text
  | .error _ => html

/-- Raw markup that no stage made and that gets another text. -/
def isAltered (o : Options) (c : Context) : Node → Bool
  | .leaf (.htmlBlock html) info | .leaf (.htmlInline html) info =>
    !isGenerated info && rewritten o c html != html
  | _ => false

theorem resolve_of_rewritten {html : String} (same : rewritten o r.context html = html) :
    (resolve o html).outcome r = (.ok html, r) := by
  obtain ⟨t, given⟩ := resolve_outcome o html r
  obtain ⟨u, alone⟩ := resolve_outcome o html ⟨r.context, []⟩
  refine resolve_eq_self ?_
  rw [rewritten, alone] at same
  rw [given]
  exact congrArg Except.ok same

end RawMarkup

namespace Media

/-- An image whose address the test accepts. -/
def isImageOf (test : String → Bool) : Node → Bool
  | .leaf (.image url _ _) _ => test url
  | _ => false

/-- A link into the note application. -/
def isAppLinkNode : Node → Bool
  | .branch (.link url _) _ _ => MediaUrl.isAppLink url
  | _ => false

end Media

namespace Blocks

/-- A code block of the diagram language. -/
def isDiagram : Node → Bool
  | .leaf (.codeBlock _ (some "mermaid")) _ => true
  | _ => false

/-- The item of a task. -/
def isTask : Node → Bool
  | .branch (.listItem (some _)) _ _ => true
  | _ => false

/-- Content with a marker at the end of its last text. -/
def endsInMarker (content : List Node) : Bool :=
  match content.getLast? with
  | some (.leaf (.text text) _) => (BlockMarker.parse? text).isSome
  | _ => false

/-- Information with an id among the attributes. -/
def carriesId (info : Record) : Bool :=
  match attrsOf info with
  | .ok attrs => !((attrs.get? idKey).getD .null matches .null)
  | .error _ => false

/-- A node that can give an id: a paragraph that ends in a marker, a node that remembers one, and an
item whose first paragraph has an id. -/
def givesId (n : Node) : Bool :=
  n.info.has markerKey ||
    match n with
    | .branch .paragraph content _ => endsInMarker content
    | .branch (.listItem _) (.branch .paragraph _ first :: _) _ => carriesId first
    | _ => false

end Blocks

/-- Whether a node is one that the stage is about, in the context of a note. -/
def isAbout (s : Stage) (o : Options) (c : Context) (n : Node) : Bool :=
  match s.option with
  | some .wikilinks => n.kind == .wikiLink
  | some .highlight => n.kind == .highlight
  | some .parseTags => n.kind == .tag
  | some .enableInHtmlEmbed => RawMarkup.isAltered o c n
  | some .enableVideoEmbed => Media.isImageOf MediaUrl.isVideo n
  | some .callouts => Callouts.opens n
  | some .mermaid => Blocks.isDiagram n
  | some .parseBlockReferences => Blocks.givesId n
  | some .enableYouTubeEmbed => Media.isImageOf (fun url => (MediaUrl.playerEmbed? url).isSome) n
  | some .enableTweetEmbed => Media.isImageOf MediaUrl.isStatus n
  | some .enableCheckbox => Blocks.isTask n
  | some .enableObsidianUri => Media.isAppLinkNode n
  | _ => false

/-- A node leaves a visit as it came. -/
def Stays (visit : Visit) (o : Options) (r : Run) (n : Node) : Prop :=
  ∀ inLink, (visit o inLink n).outcome r = (.ok (some n), r)

theorem Links.stays (h : (n.kind == .wikiLink) = false) : Stays visit o r n := by
  intro inLink
  cases n with
  | leaf l info =>
      cases l with
      | wikiLink ref => cases h
      | _ => rfl
  | _ => rfl

theorem Highlights.stays (h : (n.kind == .highlight) = false) : Stays visit o r n := by
  intro inLink
  cases n with
  | branch k cs info =>
      cases k with
      | highlight => cases h
      | _ => rfl
  | _ => rfl

theorem Tags.stays (h : (n.kind == .tag) = false) : Stays visit o r n := by
  intro inLink
  cases n with
  | leaf l info =>
      cases l with
      | tag value => cases h
      | _ => rfl
  | _ => rfl

theorem RawMarkup.stays (h : isAltered o r.context n = false) : Stays visit o r n := by
  intro inLink
  cases n with
  | leaf l info =>
      cases l with
      | htmlBlock html | htmlInline html =>
          dsimp only [visit, Visit.ofLeaf]
          split
          · rfl
          · next made =>
              have same : rewritten o r.context html = html := by simpa [isAltered, made] using h
              rw [outcome_bind_ok (resolve_of_rewritten same), outcome_pure]
      | _ => rfl
  | _ => rfl

theorem Media.video_stays (h : isImageOf MediaUrl.isVideo n = false) : Stays visitVideo o r n := by
  intro inLink
  cases n with
  | leaf l info =>
      cases l with
      | image url alt title =>
          rw [isImageOf] at h
          dsimp only [visitVideo, Visit.ofLeaf]
          rw [if_neg (Bool.eq_false_iff.mp h)]
          rfl
      | _ => rfl
  | _ => rfl

theorem Media.player_stays (h : isImageOf (fun url => (MediaUrl.playerEmbed? url).isSome) n = false) :
    Stays visitPlayer o r n := by
  intro inLink
  cases n with
  | leaf l info =>
      cases l with
      | image url alt title =>
          dsimp only [visitPlayer, Visit.ofLeaf]
          rw [Option.isSome_eq_false_iff.mp h |> Option.isNone_iff_eq_none.mp]
          rfl
      | _ => rfl
  | _ => rfl

theorem Media.status_stays (h : isImageOf MediaUrl.isStatus n = false) : Stays visitStatus o r n := by
  intro inLink
  cases n with
  | leaf l info =>
      cases l with
      | image url alt title =>
          rw [isImageOf] at h
          dsimp only [visitStatus, Visit.ofLeaf]
          rw [if_neg (Bool.eq_false_iff.mp h)]
          rfl
      | _ => rfl
  | _ => rfl

theorem Media.appLink_stays (h : isAppLinkNode n = false) : Stays visitAppLink o r n := by
  intro inLink
  cases n with
  | branch k cs info =>
      cases k with
      | link url title =>
          rw [isAppLinkNode] at h
          dsimp only [visitAppLink]
          rw [if_neg (Bool.eq_false_iff.mp h)]
          rfl
      | _ => rfl
  | _ => rfl

theorem Callouts.stays (h : opens n = false) : Stays visit o r n := fun inLink =>
  visit_of_not_opens h inLink r

namespace Blocks

theorem diagram_stays (h : isDiagram n = false) : Stays visitDiagram o r n := by
  intro inLink
  cases n with
  | leaf l info =>
      dsimp only [visitDiagram, Visit.ofLeaf]
      split
      · cases h
      · rfl
  | _ => rfl

theorem task_stays (h : isTask n = false) : Stays visitTask o r n := by
  intro inLink
  cases n with
  | branch k cs info =>
      cases k with
      | listItem mark =>
          cases mark with
          | some mark => cases h
          | none => rfl
      | _ => rfl
  | _ => rfl

theorem markParagraph_stays {content : List Node} {info : Record} (h : endsInMarker content = false) :
    (markParagraph content info).outcome r = (.ok (.branch .paragraph content info), r) := by
  unfold markParagraph
  unfold endsInMarker at h
  dsimp only
  split
  · next text _ last =>
      rw [last] at h
      dsimp only at h
      rw [Option.isSome_eq_false_iff.mp h |> Option.isNone_iff_eq_none.mp]
      rfl
  · rfl

/-- Without a marker in a list nothing is handed on. -/
theorem attach_stays {ns : List Node} (h : ∀ n ∈ ns, n.info.has markerKey = false) (done : List Node) :
    (attach done ns).outcome r = (.ok (done.reverse ++ ns), r) := by
  induction ns generalizing done with
  | nil =>
      rw [attach, List.append_nil]
      rfl
  | cons n ns ih =>
      obtain ⟨first, later⟩ := List.forall_mem_cons.mp h
      have none : n.info.get? markerKey = none := by simpa [Record.has, Record.get?] using first
      have plain : n.withInfo (n.info.erase markerKey) = n := by
        rw [Record.erase, markerKey, Entries.erase_eq_self none, withInfo_info]
      rw [attach, plain]
      case heq => rw [none, Option.getD_none]
      rw [ih later, List.reverse_cons, List.append_assoc]
      rfl

theorem adoptId_stays {mark : Option TaskMark} {cs : List Node} {info : Record}
    (readable : ∀ n ∈ cs, ∃ as, attrsOf n.info = .ok as)
    (h : givesId (.branch (.listItem mark) cs info) = false) :
    (adoptId mark cs info).outcome r = (.ok (.branch (.listItem mark) cs info), r) := by
  unfold adoptId
  dsimp only
  split
  · next content first rest =>
      obtain ⟨as, known⟩ := readable _ List.mem_cons_self
      have known : attrsOf first = .ok as := known
      have none : carriesId first = false := (Bool.or_eq_false_iff.mp h).2
      rw [known, outcome_bind_ok (outcome_ofExcept_ok _ _)]
      rw [carriesId, known] at none
      dsimp only at none
      split
      · rfl
      · next present =>
          -- an id that is there makes the item one that the stage is about
          simp only [Bool.not_eq_false'] at none
          cases none
  · rfl

theorem marker_stays (readable : ∀ m ∈ n.children, ∃ as, attrsOf m.info = .ok as)
    (bare : ∀ m ∈ n.children, m.info.has markerKey = false) (h : givesId n = false) :
    Stays visitMarker o r n := by
  intro inLink
  cases n with
  | leaf l info => rfl
  | table header rows al info => rfl
  | branch k cs info =>
      have attached : (attach [] cs).outcome r = (.ok cs, r) := attach_stays bare []
      cases k with
      | paragraph =>
          have marked : (markParagraph cs info).outcome r = (.ok (.branch .paragraph cs info), r) :=
            markParagraph_stays (Bool.or_eq_false_iff.mp h).2
          rw [visitMarker, map_eq_bind, outcome_bind_ok marked]
          rfl
      | document | blockQuote =>
          rw [visitMarker, outcome_bind_ok attached]
          rfl
      | listItem mark =>
          have adopted : (adoptId mark cs info).outcome r = (.ok (.branch (.listItem mark) cs info), r) :=
            adoptId_stays readable h
          rw [visitMarker, outcome_bind_ok attached, map_eq_bind, outcome_bind_ok adopted]
          rfl
      | _ => rfl

end Blocks

theorem Blocks.bare_of_not_givesId (h : Blocks.givesId n = false) : n.info.has Blocks.markerKey = false :=
  (Bool.or_eq_false_iff.mp h).1

theorem stays_of_others {s : Stage} (builtin : s ∈ Stage.builtin)
    (readable : ∀ m ∈ n.children, ∃ as, attrsOf m.info = .ok as)
    (below : ∀ m ∈ n.children, s.isAbout o r.context m = false)
    (self : s.isAbout o r.context n = false) : Stays s.transformation.visit o r n := by
  simp only [Stage.builtin, List.mem_cons, List.not_mem_nil, or_false] at builtin
  rcases builtin with rfl | rfl | rfl | rfl | rfl | rfl | rfl | rfl | rfl | rfl | rfl | rfl
  · exact Links.stays self
  · exact Highlights.stays self
  · exact Tags.stays self
  · exact RawMarkup.stays self
  · exact Media.video_stays self
  · exact Callouts.stays self
  · exact Blocks.diagram_stays self
  · exact Blocks.marker_stays readable (fun m hm => Blocks.bare_of_not_givesId (below m hm)) self
  · exact Media.player_stays self
  · exact Media.status_stays self
  · exact Blocks.task_stays self
  · exact Media.appLink_stays self

/-- A stage returns a tree that holds none of its constructs, and leaves the state as it was. -/
theorem run_of_others (s : Stage) (builtin : s ∈ Stage.builtin) (o : Options) (n : Node) (r : Run)
    (readable : ∀ m ∈ n.nodes, ∃ as, attrsOf m.info = .ok as)
    (others : ∀ m ∈ n.nodes, s.isAbout o r.context m = false) :
    (s.transformation.visit.run o n).outcome r = (.ok (some n), r) := by
  have family : All (fun m => s.isAbout o r.context m = false ∧ ∀ c ∈ m.children,
      (∃ as, attrsOf c.info = .ok as) ∧ s.isAbout o r.context c = false) n := by
    intro m hm
    have child : ∀ c ∈ m.children, c ∈ n.nodes := fun c hc => child_mem_nodes hm hc
    exact ⟨others m hm, fun c hc => ⟨readable c (child c hc), others c (child c hc)⟩⟩
  refine transform_fixed (fun inLink m ⟨self, below⟩ => ?_) n false family
  exact stays_of_others builtin (fun c hc => (below c hc).1) (fun c hc => (below c hc).2) self inLink

/-- An open task with a power in its text, in a list that counts from five. -/
def powerTask : Node :=
  .branch .document [.branch (.list true 5 false) [.branch (.listItem (some .unchecked))
    [Node.paragraph [Node.ofText "check 2 ^ 3"]] []]
      [(attrsKey, .map [(.str "class", .str "steps")])]] []

theorem powerTask_stays :
    (blockReferences.transformation.visit.run Options.defaults powerTask).outcome
        ⟨Context.new "n" none, []⟩ = (.ok (some powerTask), ⟨Context.new "n" none, []⟩) := by
  have readable : ∀ m ∈ powerTask.nodes, (attrsOf m.info).toOption.isSome = true := by decide
  refine run_of_others blockReferences (by simp [builtin]) Options.defaults powerTask _ ?_ (by decide)
  intro m hm
  cases known : attrsOf m.info with
  | ok as => exact ⟨as, rfl⟩
  | error e =>
      have some := readable m hm
      rw [known] at some
      cases some

end NoteMarkup.Stage
