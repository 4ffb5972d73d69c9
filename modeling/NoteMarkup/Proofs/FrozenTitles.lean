import NoteMarkup.Proofs.MediaMarkers
import NoteMarkup.Proofs.WellFormed

/-! With the default options the stages for players, status messages and links into the note application
run after the one that renders the titles of callouts. What a title shows of them is frozen in its
markup, and so is the link in the markup for an embedded note. Nothing else is missed. -/

namespace NoteMarkup

open Html Node Stage Stage.Blocks

variable {f : Flag} {fs : List Flag} {b : Bool} {n : Node} {r : Run} {o : Options} {inLink : Bool}
  {s : Stage} {rest : List Stage}

/-- Options that are on for these flags alone. -/
def Options.only (fs : List Flag) : Options := ⟨fs.contains⟩

theorem Options.only_set (fresh : f ∉ fs) : (only (f :: fs)).set f false = only fs := by
  have same (g : Flag) : (if g = f then false else (f :: fs).contains g) = fs.contains g := by
    split
    · next equal => rw [equal, Bool.eq_false_iff.mpr (fresh ∘ List.contains_iff_mem.mp)]
    · next other => rw [List.contains_cons, beq_eq_false_iff_ne.mpr other, Bool.false_or]
  exact congrArg Options.mk (funext same)

namespace Stage

def defaultStages : List Stage :=
  [wikilinks, highlights, tagLinks, videoEmbeds, callouts, diagrams, blockReferences, playerEmbeds,
    statusEmbeds, appLinks]

def defaultFlags : List Flag :=
  [.wikilinks, .highlight, .parseTags, .enableVideoEmbed, .callouts, .mermaid, .parseBlockReferences,
    .enableYouTubeEmbed, .enableTweetEmbed, .enableObsidianUri]

theorem enabledStages_defaults : Registry.builtin.enabledStages Options.defaults = defaultStages :=
  Pipeline.enabledStages_builtin _

theorem fits_defaults (h : f :: fs <:+ defaultFlags) : Fits f (Options.only (f :: fs)) false := by
  simp only [defaultFlags, List.suffix_cons_iff, List.cons.injEq, List.suffix_nil, reduceCtorEq,
    or_false] at h
  rcases h with ⟨rfl, rfl⟩ | ⟨rfl, rfl⟩ | ⟨rfl, rfl⟩ | ⟨rfl, rfl⟩ | ⟨rfl, rfl⟩ | ⟨rfl, rfl⟩ |
    ⟨rfl, rfl⟩ | ⟨rfl, rfl⟩ | ⟨rfl, rfl⟩ | ⟨rfl, rfl⟩
  all_goals
    refine ⟨rfl, by decide, fun same g early => ?_, by decide⟩
    cases g <;> first | (cases same; done) | (cases early; done) | rfl

theorem mem_builtin_of_default (hs : s ∈ defaultStages) : s ∈ builtin := by
  rw [← enabledStages_defaults] at hs
  exact (Pipeline.mem_enabledStages_builtin.mp hs).1

theorem exists_flag (hs : s ∈ defaultStages) : ∃ f, s.option = some f := by
  simp only [defaultStages, List.mem_cons, List.not_mem_nil, or_false] at hs
  rcases hs with rfl | rfl | rfl | rfl | rfl | rfl | rfl | rfl | rfl | rfl
  all_goals exact ⟨_, rfl⟩

/-- What a default stage does to a node hands it on. -/
theorem visit_handed (hs : s ∈ defaultStages) (flag : s.option = some f)
    (other : f ≠ .parseBlockReferences) {m : Node} (sound : SoundTree True False m)
    (renewed : Renewed (Handed f) n m) :
    Visited (s.transformation.visit Options.defaults inLink m) r (Handed f n) True := by
  simp only [defaultStages, List.mem_cons, List.not_mem_nil, or_false] at hs
  rcases hs with rfl | rfl | rfl | rfl | rfl | rfl | rfl | rfl | rfl | rfl <;> cases flag
  · exact Links.visit_handed rfl renewed
  · exact Highlights.visit_handed renewed
  · exact Tags.visit_handed renewed
  · exact Media.visitVideo_handed renewed
  · exact Callouts.visit_handed sound renewed
  · exact Blocks.visitDiagram_handed renewed
  · exact (other rfl).elim
  · exact Media.visitPlayer_handed renewed
  · exact Media.visitStatus_handed renewed
  · exact Media.visitAppLink_handed sound renewed

theorem eq_blockReferences (hs : s ∈ defaultStages) (flag : s.option = some .parseBlockReferences) :
    s = blockReferences := by
  simp only [defaultStages, List.mem_cons, List.not_mem_nil, or_false] at hs
  rcases hs with rfl | rfl | rfl | rfl | rfl | rfl | rfl | rfl | rfl | rfl <;> cases flag
  rfl

/-- A default stage hands a tree on. -/
theorem run_handed (hs : s ∈ defaultStages) (flag : s.option = some f) (sound : SoundTree True False n)
    (unnamed : f = .parseBlockReferences → All Unnamed n) :
    Visited (s.transformation.visit.run Options.defaults n) r
      (fun m => SoundFor True False n m ∧ Handed f n m) False := by
  -- the stage that reads markers drops nodes, so its run is known as a whole and not visit by visit
  by_cases same : f = .parseBlockReferences
  · subst same
    cases eq_blockReferences hs flag
    refine (builtin_run_sound (mem_builtin_of_default hs) sound).and ?_
    have ran := transform_runs Options.defaults n .keep false r fun m hm => (unnamed rfl m hm).unmarked
    refine ⟨fun k t given => ?_, fun _ _ _ => trivial, ran.quiet⟩
    obtain ⟨rfl, -⟩ := ran.ok k t given
    exact ⟨_, rfl, mark_handed sound (unnamed rfl)⟩
  · refine transform_yields (R := fun n m => SoundFor True False n m ∧ Handed f n m)
      (fun inLink n n' r h renewed => ?_) n false r sound
    obtain ⟨below, place⟩ := sound_of_renewed h (renewed.imp fun _ _ h => h.1)
    have handed : Visited (s.transformation.visit Options.defaults inLink n') r (Handed f n) True :=
      visit_handed hs flag same below (renewed.imp fun _ _ h => h.2)
    refine Visited.imp ((builtin_visit_sound (mem_builtin_of_default hs) below).and handed) ?_
    rintro m ⟨⟨sound, place'⟩, handed⟩
    exact ⟨⟨sound, place.trans place'⟩, handed⟩

/-- A document that misses something in the end, if `b`, with the stages of some flags still to come. -/
structure Pending (fs : List Flag) (b : Bool) (n : Node) : Prop where
  sound : SoundTree True False n
  document : n.kind = .document
  unnamed : .parseBlockReferences ∈ fs → All Unnamed n
  misses : (Options.only fs).misses false n = b

theorem run_pending (hs : s ∈ defaultStages) (flag : s.option = some f)
    (suffix : f :: fs <:+ defaultFlags) (h : Pending (f :: fs) b n) :
    Visited (s.transformation.visit.run Options.defaults n) r (Pending fs b) False := by
  have fresh : f ∉ fs := (List.nodup_cons.mp (suffix.sublist.nodup (by decide))).1
  have handed := run_handed (r := r) hs flag h.sound (by rintro rfl; exact h.unnamed List.mem_cons_self)
  have keep {m : Node} (sound : SoundFor True False n m) (handed : Handed f n m)
      (unnamed : .parseBlockReferences ∈ fs → All Unnamed m) : Pending fs b m := by
    refine ⟨sound.1, sound.2.document h.document, unnamed, ?_⟩
    rw [← Options.only_set fresh, ← handed.misses _ _ (fits_defaults suffix)]
    exact h.misses
  by_cases later : .parseBlockReferences ∈ fs
  · have other : s.option ≠ some .parseBlockReferences := by
      rintro same
      cases flag.symm.trans same
      exact fresh later
    have unnamed := run_unnamed (r := r) (o := Options.defaults) (mem_builtin_of_default hs) other
      (h.unnamed (List.mem_cons_of_mem _ later))
    exact Visited.imp (handed.and unnamed) fun m ⟨⟨sound, handed⟩, unnamed⟩ =>
      keep sound handed fun _ => unnamed
  · exact handed.imp fun m ⟨sound, handed⟩ => keep sound handed (absurd · later)

end Stage

namespace Pipeline

/-- A document passes the default stages and misses at the end what it misses with all of them to come. -/
theorem transform_pending (h : Pending defaultFlags b n) (c : Context) (log : Log.Records) :
    ∃ m c' log', (transform Registry.builtin Options.defaults n c).run log = ((.ok m, c'), log') ∧
      Pending [] b m := by
  have ends := transform_ends (o := Options.defaults)
    (fun ss n => ss <:+ defaultStages ∧ Pending (ss.filterMap (·.option)) b n) False Registry.builtin
    (fun s _ rest n r ⟨suffix, pending⟩ => ?_)
    (by rw [enabledStages_defaults]; exact ⟨List.suffix_rfl, h⟩) c log
  · rcases run : (transform Registry.builtin Options.defaults n c).run log with ⟨⟨e | m, c'⟩, log'⟩
    · exact (ends.2 e c' log' run).elim
    · exact ⟨m, c', log', rfl, (ends.1 m c' log' run).1.2⟩
  · have hs : s ∈ defaultStages := suffix.subset List.mem_cons_self
    have flags := suffix.filterMap (·.option)
    obtain ⟨f, flag⟩ := exists_flag hs
    rw [List.filterMap_cons_some flag] at flags pending
    refine (run_pending hs flag flags pending).mono ?_
    rintro _ _ ⟨m, rfl, pending⟩
    refine ⟨?_, .inr ⟨m, rfl, pending.document⟩⟩
    rintro _ ⟨⟩
    exact ⟨(List.suffix_cons s rest).trans suffix, pending⟩

/-- The address of an image that turns into a player or a status message only after the callouts. -/
def isLate (url : String) : Bool := !MediaUrl.isVideo url && isPlayed url

/-- What turns into markup before the stage that would take care of it. -/
def frozen : Look where
  leaf
    | inTitle, .image url _ _, _ => inTitle && isLate url
    | inTitle, .wikiLink r, _ =>
      r.judge (fun url => inTitle && isLate url) fun url => inTitle && MediaUrl.isAppLink url
    | _, _, _ => false
  link inTitle url _ _ := inTitle && MediaUrl.isAppLink url
  hides := true
  titles := true

section Bare

variable {url alt : String} {title : Option String} {info : Record} {inTitle : Bool}

theorem isMissed_link_bare (bare : info.get? attrsKey = none) :
    isMissed ("a", attrList (linkRecord url title info)) = MediaUrl.isAppLink url := by
  have none : given info = [] := given_of_hasAttrs (.of_none bare)
  have classes : (linkRecord url title info).get? (.str "class") = .none := by
    rw [linkRecord, none]
    unfold titleAttr
    split
    · split <;> rfl
    · rfl
  have address : (linkRecord url title info).get? (.str "href") = some (.str url) := by
    rw [linkRecord, none]
    rfl
  rw [isMissed_link (none ▸ nameable_nil.named), classes, address]
  have unclassed : (classesIn "").contains Media.appClass = false := by decide
  rw [Option.bind_none, Option.getD_none, unclassed]
  simp [valueText?, attributeText, Value.text]

theorem missesImage_bare (bare : info.get? attrsKey = none) :
    ((Options.only defaultFlags).meets inTitle).missesImage url alt title info =
      (inTitle && isLate url) := by
  rw [Options.missesImage, isMissed_image_of_none (.of_none bare) nameable_nil.named rfl, isLate,
    isPlayed]
  cases inTitle with
  | false =>
      change (!(true && _) && !(true && _) && !(true && _) && _) = (false && _)
      cases (MediaUrl.playerEmbed? url).isSome <;> cases MediaUrl.isStatus url <;> simp
  | true =>
      change (!(true && _) && !(false && _) && !(false && _) && _) = (true && _)
      simp

theorem missesLink_bare (bare : info.get? attrsKey = none) :
    ((Options.only defaultFlags).meets inTitle).missesLink url title info =
      (inTitle && MediaUrl.isAppLink url) := by
  rw [Options.missesLink, isMissed_link_bare bare]
  cases inTitle with
  | false =>
      change (!(true && _) && _) = (false && _)
      cases MediaUrl.isAppLink url <;> rfl
  | true =>
      change (!(false && _) && _) = (true && _)
      cases MediaUrl.isAppLink url <;> rfl

end Bare

/-- With all default stages to come, a tree misses what is frozen in it. -/
theorem misses_eq_frozen {d : Node} (closed : ∀ n ∈ d.nodes, Closed n) :
    (Options.only defaultFlags).misses false d = d.shows frozen false := by
  refine shows_congr ?_ ?_ d false (fun t l info _ hl => ?_) fun t url title cs info _ hl => ?_
  · rfl
  · rfl
  · have self := closed _ hl
    cases l with
    | image url alt title => exact missesImage_bare self.noAttrs
    | wikiLink r =>
        have on : ((Options.only defaultFlags).meets t).enabled .wikilinks = true := by cases t <;> rfl
        change (((Options.only defaultFlags).meets t).enabled .wikilinks &&
          ((Options.only defaultFlags).meets t).missesReference r) =
            r.judge (fun url => t && isLate url) fun url => t && MediaUrl.isAppLink url
        rw [on, Bool.true_and, Options.missesReference]
        simp only [missesImage_bare (show Record.get? [] attrsKey = none from rfl),
          missesLink_bare (show Record.get? [] attrsKey = none from rfl)]
    | htmlBlock => exact (self.notBlock rfl).elim
    | htmlInline => exact (self.notInline rfl).elim
    | _ => rfl
  · exact missesLink_bare (closed _ hl).noAttrs

theorem pending_of_closed {d : Node} (document : d.kind = .document) (closed : ∀ n ∈ d.nodes, Closed n)
    (unmarked : ∀ n ∈ d.nodes, n.info.get? markerKey = none) :
    Pending defaultFlags (d.shows frozen false) d where
  sound n hn := (closed n hn).sound (.inl (by rw [unmarked n hn]; rfl))
  document := document
  unnamed _ n hn := unnamed_of_none (closed n hn).noAttrs (unmarked n hn)
  misses := misses_eq_frozen closed

/-- With no stage to come, the markup of a document misses what the document misses. -/
theorem render_pending {m : Node} (h : Pending [] b m) :
    ∃ html, (∀ log, (Pipeline.render m).run log = (.ok html, log)) ∧ missed html = b := by
  obtain ⟨html, rendered, tells⟩ := render_tells false h.sound m m.self_mem_nodes false
  have flow : m.place = .flow := place_of_kind (n := .branch .document [] []) h.document
  have whole : Options.none.misses false m = b := h.misses
  refine ⟨html, fun log => ?_, ?_⟩
  · have given : ofDocument m = .ok html := (ofDocument_eq m).trans rendered
    unfold Pipeline.render
    rw [given]
    rfl
  · rw [tells.missed, flow, whole]
    rfl

/-- The markup of a note with the default options misses exactly what is frozen in the note. -/
theorem missed_eq_frozen (d : Node) (c : Context) (log : Log.Records) (document : d.kind = .document)
    (closed : ∀ n ∈ d.nodes, Closed n) (unmarked : ∀ n ∈ d.nodes, n.info.get? markerKey = none) :
    ∃ m c' log' html, (transform Registry.builtin Options.defaults d c).run log = ((.ok m, c'), log') ∧
      (∀ log, (Pipeline.render m).run log = (.ok html, log)) ∧ missed html = d.shows frozen false := by
  obtain ⟨m, c', log', ran, pending⟩ :=
    transform_pending (pending_of_closed document closed unmarked) c log
  obtain ⟨html, rendered, same⟩ := render_pending pending
  exact ⟨m, c', log', html, ran, rendered, same⟩

def player (url : String) : Node := .leaf (.image url "" none) []

def intoApp : Node := .branch (.link "obsidian://open" none) [Node.ofText "open"] []

/-- A player and a link in a heading, a table, and the text of a callout. -/
def bodyNote : Node :=
  .branch .document
    [.branch (.heading .one) [player "https://youtu.be/dQw4w9WgXcQ", intoApp] [],
      .table none [.branch (.tableRow false) [.branch (.tableCell none) [intoApp] []] []] [none] [],
      .branch .blockQuote [.branch .paragraph [Node.ofText "[!tip] Watch"] [],
        .branch .paragraph [player "https://x.com/a/status/1", intoApp] []] []] []

theorem bodyNote_missed :
    ∃ m c log html, (transform Registry.builtin Options.defaults bodyNote
        (Context.new "index" none)).run [] = ((.ok m, c), log) ∧
      (Pipeline.render m).run log = (.ok html, log) ∧ missed html = false := by
  obtain ⟨m, c, log, html, ran, rendered, same⟩ :=
    missed_eq_frozen bodyNote (Context.new "index" none) [] rfl (by decide) (by decide)
  exact ⟨m, c, log, html, ran, rendered log, same.trans (by decide)⟩

/-- A player in the title of a callout. -/
def titledPlayer : Node :=
  .branch .document
    [.branch .blockQuote
      [.branch .paragraph [Node.ofText "[!note] ", player "https://youtu.be/dQw4w9WgXcQ"] []] []] []

theorem titledPlayer_missed :
    ∃ m c log html, (transform Registry.builtin Options.defaults titledPlayer
        (Context.new "index" none)).run [] = ((.ok m, c), log) ∧
      (Pipeline.render m).run log = (.ok html, log) ∧ missed html = true := by
  have source : Pending defaultFlags (titledPlayer.shows frozen false) titledPlayer :=
    pending_of_closed rfl (by decide) (by decide)
  obtain ⟨m, c, log, ran, pending⟩ := transform_pending source (Context.new "index" none) []
  obtain ⟨html, rendered, same⟩ := render_pending pending
  exact ⟨m, c, log, html, ran, rendered log, same.trans (by decide)⟩

end Pipeline

end NoteMarkup
