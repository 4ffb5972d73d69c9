import NoteMarkup.Proofs.MediaStages

/-! What each stage does to what a node misses. Every stage hands its nodes on: an image or a link that
a stage takes care of misses nothing afterwards, and the callouts leave a title as it is in its markup. -/

namespace NoteMarkup

open Html Node Stage

variable {f : Flag} {p : Options} {inTitle : Bool} {n m : Node} {o : Options} {inLink : Bool} {r : Run}
  {stuck : Prop}

namespace Stage

theorem Visited.of_stays {visit : Visit} {Q : Node → Prop} (h : Stays visit o r n) (kept : Q n) :
    Visited (visit o inLink n) r Q stuck where
  ok k s given := by
    rw [h inLink] at given
    cases given
    exact ⟨n, rfl, kept⟩
  error e s given := by
    rw [h inLink] at given
    cases given
  quiet := by
    rw [h inLink]
    exact .refl _

end Stage

/-- A stage other than that of the callouts is still to come where it is the next. -/
theorem Fits.meets (h : Fits f p inTitle) (other : f ≠ .callouts) :
    (p.meets inTitle).enabled f = true := by
  cases inTitle with
  | false => exact h.on
  | true =>
      cases early : Options.isEarly f with
      | true => simp [Options.meets, h.on, early]
      | false => cases (h.after early other).2

theorem Options.misses_made (content : String) :
    p.misses inTitle (generatedInline content) = missed content := rfl

theorem Options.misses_link {url : String} {title : Option String} {cs : List Node} {info : Record} :
    p.misses inTitle (.branch (.link url title) cs info) =
      ((p.meets inTitle).missesLink url title info || showsAny p.missing .flow inTitle cs) := rfl

/-- A leaf can be replaced by what misses the same. -/
theorem Handed.of_leaf {l : Leaf} {info : Record} (place : m.place = .flow)
    (line : Callouts.lineDirective? m = Callouts.lineDirective? (.leaf l info))
    (title : Callouts.directive? m = none)
    (misses : ∀ p inTitle, Fits f p inTitle →
      (p.meets inTitle).missesLeaf l info = (p.set f false).misses inTitle m) :
    Handed f (.leaf l info) m :=
  ⟨place, fun _ _ _ _ => ⟨line, title⟩, misses⟩

namespace Options

theorem missesImage_set {url alt : String} {title : Option String} {info : Record}
    (video : f ≠ .enableVideoEmbed) (player : f ≠ .enableYouTubeEmbed) (status : f ≠ .enableTweetEmbed) :
    ((p.set f false).meets inTitle).missesImage url alt title info =
      (p.meets inTitle).missesImage url alt title info := by
  rw [missesImage, missesImage, guard_set (absurd · video), guard_set (absurd · player),
    guard_set (absurd · status)]

theorem missesLink_set {url : String} {title : Option String} {info : Record}
    (app : f ≠ .enableObsidianUri) :
    ((p.set f false).meets inTitle).missesLink url title info =
      (p.meets inTitle).missesLink url title info := by
  rw [missesLink, missesLink, guard_set (absurd · app)]

end Options

namespace Stage.Links

/-- The size of an image does not count. -/
theorem misses_sized (url : String) (d : ImageLabel.Display) :
    p.misses inTitle ((Node.leaf (.image url "" none) []).styled []
        [(.str "width", .str d.width), (.str "height", .str d.height), (.str "alt", .str d.alt)]) =
      (p.meets inTitle).missesImage url "" none [] := by
  change (p.meets inTitle).missesImage url "" none [(attrsKey, .map
    [(.str "width", .str d.width), (.str "height", .str d.height), (.str "alt", .str d.alt)])] = _
  have sizes : Nameable
      [(.str "width", .str d.width), (.str "height", .str d.height), (.str "alt", .str d.alt)] :=
    nameable_cons rfl (nameable_cons rfl (nameable_single rfl _))
  rw [Options.missesImage, Options.missesImage, isMissed_image_of_none (.inr rfl) sizes.named rfl,
    isMissed_image_of_none (.of_none rfl) nameable_nil.named rfl]

theorem resolve_unbroken {target : String} {anchor label : Option String} {c : Context}
    (unbroken : o.enabled .disableBrokenWikilinks = false) :
    (resolve target anchor label c o).broken = false ∧
      (resolve target anchor label c o).url.getD "" = Reference.address target anchor := by
  unfold resolve Reference.address
  split
  · exact ⟨rfl, rfl⟩
  · rw [unbroken]
    exact ⟨rfl, rfl⟩

theorem resolveM_unbroken {target : String} {anchor label : Option String}
    (unbroken : o.enabled .disableBrokenWikilinks = false) :
    (resolveM target anchor label o).Yields r (fun res _ => res.broken = false ∧
      res.url.getD "" = Reference.address target anchor) stuck := by
  unfold resolveM
  refine .bind_context ?_
  dsimp only
  split
  · exact .bind_debug fun _ => .pure (resolve_unbroken unbroken)
  · exact .pure (resolve_unbroken unbroken)

theorem embed_handed {ref : Reference} {info : Record} (embedded : ref.embedded = true) :
    (embed (trimText ref.target) (trimPart ref.anchor) (trimPart ref.label)).Yields r
      (fun m _ => Handed .wikilinks (.leaf (.wikiLink ref) info) m) stuck := by
  have pending {p : Options} {inTitle : Bool} (fits : Fits .wikilinks p inTitle) :
      (p.meets inTitle).missesLeaf (.wikiLink ref) info = (p.meets inTitle).missesReference ref := by
    rw [Options.missesLeaf, fits.meets (by decide), Bool.true_and]
  have made {content : String} (b : Bool) (shows : Shows b content)
      (same : ∀ p : Options, p.missesReference ref = b) {i : Record} :
      Handed .wikilinks (.leaf (.wikiLink ref) info) (.leaf (.htmlInline content) i) := by
    refine .of_leaf rfl rfl rfl fun p inTitle fits => ?_
    rw [pending fits, same]
    exact shows.missed.symm
  unfold embed
  dsimp only
  split
  · next image =>
      rw [withAttrs_eq_ok (.of_none rfl)]
      refine .pure (.of_leaf rfl rfl rfl fun p inTitle fits => ?_)
      have own : (p.meets inTitle).missesReference ref =
          (p.meets inTitle).missesImage (Slug.ofTarget (trimText ref.target)) "" none [] := by
        simp [Options.missesReference, Reference.judge, embedded, image]
      rw [pending fits, own, misses_sized, Options.missesImage_set (by decide) (by decide) (by decide)]
  · next video =>
      refine .pure (made false (mediaMarkup_shows rfl rfl (by decide) _) fun p => ?_)
      simp [Options.missesReference, Reference.judge, embedded, video]
  · next audio =>
      refine .pure (made false (mediaMarkup_shows rfl rfl (by decide) _) fun p => ?_)
      simp [Options.missesReference, Reference.judge, embedded, audio]
  · next pdf =>
      refine .pure (made false (pdf_shows _) fun p => ?_)
      simp [Options.missesReference, Reference.judge, embedded, pdf]
  · next note =>
      refine .bind_debug fun _ => .pure (made _ (transcludeMarkup_shows _ _ _) fun p => ?_)
      simp [Options.missesReference, Reference.judge, embedded, note]

theorem replace_handed {ref : Reference} {info : Record}
    (unbroken : o.enabled .disableBrokenWikilinks = false) :
    (replace ref o).Yields r (fun m _ => Handed .wikilinks (.leaf (.wikiLink ref) info) m) stuck := by
  unfold replace
  dsimp only
  split
  · next embedded => exact embed_handed embedded
  · next linked =>
      refine (resolveM_unbroken unbroken).bind fun res s resolved => .pure ?_
      obtain ⟨whole, address⟩ := resolved
      rw [linkNode, whole]
      refine .of_leaf rfl rfl rfl fun p inTitle fits => ?_
      have own : (p.meets inTitle).missesReference ref =
          (p.meets inTitle).missesLink (res.url.getD "") none [] := by
        simp [Options.missesReference, Reference.judge, linked, address]
      have text : showsAny (p.set .wikilinks false).missing .flow inTitle [Node.ofText res.text] = false :=
        rfl
      rw [Options.missesLeaf, fits.meets (by decide), Bool.true_and, own, if_neg Bool.false_ne_true,
        Options.misses_link, Options.missesLink_set (by decide), text, Bool.or_false]

theorem visit_handed (unbroken : o.enabled .disableBrokenWikilinks = false)
    (renewed : Renewed (Handed .wikilinks) n m) :
    Visited (visit o inLink m) r (Handed .wikilinks n) stuck := by
  cases about : m.kind == .wikiLink with
  | false => exact .of_stays (stays about) (.of_renewed renewed about)
  | true =>
      cases renewed with
      | leaf l info =>
          cases l with
          | wikiLink ref => exact .map ((replace_handed unbroken).mono fun m _ h => ⟨m, rfl, h⟩)
          | _ => cases about
      | branch k => cases k <;> cases about
      | table => cases about

end Stage.Links

theorem Stage.Highlights.visit_handed (renewed : Renewed (Handed .highlight) n m) :
    Visited (visit o inLink m) r (Handed .highlight n) stuck := by
  cases about : m.kind == .highlight with
  | false => exact .of_stays (stays about) (.of_renewed renewed about)
  | true =>
      cases renewed with
      | leaf l => cases l <;> cases about
      | table => cases about
      | branch k info related =>
          cases k with
          | highlight =>
              refine .keep ⟨rfl, fun _ _ _ _ => ⟨rfl, rfl⟩, fun p inTitle fits => ?_⟩
              have hidden : p.missing.hides = true := fits.on
              rw [replace, Options.misses_made, (Highlight.markup_shows (.escaped _)).missed,
                Options.misses, shows, hidden]
              rfl
          | _ => cases about

namespace Stage.Media

/-- An image turns into markup that misses nothing, and no stage to come counts for it. -/
theorem Rewrites.handed {test : String → Bool} {markup : String → Option String}
    (other : f ≠ .callouts) (about : ∀ n, f.alters n = isImageOf test n)
    (tested : ∀ url, test url = (markup url).isSome)
    (made : ∀ url content, markup url = some content → Shows false content)
    (covers : ∀ (p : Options) url alt title info, p.enabled f = true → test url = true →
      p.missesImage url alt title info = false)
    (renewed : Renewed (Handed f) n m) {k : Node} (h : Rewrites markup m k) : Handed f n k := by
  cases h with
  | keep none =>
      refine .of_renewed renewed ?_
      rw [about]
      unfold isImageOf
      split
      · next url alt title info => rw [tested, none url alt title info rfl]; rfl
      · rfl
  | @embed url alt title info content found =>
      cases renewed with
      | leaf =>
          have passed : test url = true := by rw [tested, found]; rfl
          refine .of_leaf rfl rfl rfl fun p inTitle fits => ?_
          rw [Options.misses_made, (made url content found).missed]
          exact covers _ url alt title info (fits.meets other) passed

theorem visitVideo_handed (renewed : Renewed (Handed .enableVideoEmbed) n m) :
    Visited (visitVideo o inLink m) r (Handed .enableVideoEmbed n) stuck := by
  refine visitVideo_yields.imp fun k h => h.handed (by decide) (fun _ => rfl) ?_ ?_ ?_ renewed
  · intro url
    unfold video?
    cases MediaUrl.isVideo url <;> rfl
  · intro url content found
    unfold video? at found
    split at found
    · cases found
      exact MediaUrl.videoMarkup_shows url
    · cases found
  · intro p url alt title info on passed
    rw [Options.missesImage, on, passed]
    rfl

theorem visitPlayer_handed (renewed : Renewed (Handed .enableYouTubeEmbed) n m) :
    Visited (visitPlayer o inLink m) r (Handed .enableYouTubeEmbed n) stuck := by
  refine visitPlayer_yields.imp fun k h => h.handed (by decide) (fun _ => rfl) ?_ ?_ ?_ renewed
  · intro url
    rw [player?, Option.isSome_map]
  · intro url content found
    obtain ⟨embed, -, rfl⟩ := Option.map_eq_some_iff.mp found
    exact MediaUrl.playerMarkup_shows embed
  · intro p url alt title info on passed
    rw [Options.missesImage, on, passed]
    simp

theorem visitStatus_handed (renewed : Renewed (Handed .enableTweetEmbed) n m) :
    Visited (visitStatus o inLink m) r (Handed .enableTweetEmbed n) stuck := by
  refine visitStatus_yields.imp fun k h => h.handed (by decide) (fun _ => rfl) ?_ ?_ ?_ renewed
  · intro url
    unfold status?
    cases MediaUrl.isStatus url <;> rfl
  · intro url content found
    unfold status? at found
    split at found
    · next status =>
        cases found
        exact MediaUrl.statusMarkup_shows status
    · cases found
  · intro p url alt title info on passed
    rw [Options.missesImage, on, passed]
    simp

theorem visitAppLink_handed (sound : SoundTree True False m)
    (renewed : Renewed (Handed .enableObsidianUri) n m) :
    Visited (visitAppLink o inLink m) r (Handed .enableObsidianUri n) True := by
  refine (visitAppLink_yields (fun _ => trivial) fun _ _ _ _ => trivial).imp fun k h => ?_
  cases h with
  | keep other =>
      refine .of_renewed renewed ?_
      unfold Flag.alters isAppLinkNode
      dsimp only
      split
      · next url title cs info => exact other url title cs info rfl
      · rfl
  | @mark url title ds info as classes app has known =>
      cases renewed with
      | branch k info related =>
          refine ⟨rfl, ?_, ?_⟩
          · intro p inTitle fits callouts
            rw [(fits.after rfl (by decide)).1] at callouts
            cases callouts
          · intro p inTitle fits
            obtain ⟨as, has', usable⟩ := sound.self.attrs
            cases has'.unique has
            have named : Record.Named [(.str "class", .list (addAppClass classes))] :=
              (nameable_single rfl _).named
            have marked : isMissed ("a", attrList (linkRecord url title (info.set attrsKey
                (.map (as.merge [(.str "class", .list (addAppClass classes))]))))) = false :=
              isMissed_link_of_class (.set_self info _) ((usable.nameable trivial).named.merge named)
                (Record.distinct_merge (usable.distinct trivial) named) (Record.get?_set_self as "class" _)
            have covered : (p.meets inTitle).missesLink url title info = false := by
              rw [Options.missesLink, fits.meets (by decide), app]
              rfl
            rw [styled, withInfo, Node.info, Options.misses_link, Options.misses_link, covered,
              Options.missesLink, marked, Bool.and_false, Handed.showsAny_eq related fits]

end Stage.Media

/-- The attributes of a code block do not count. -/
theorem Stage.Blocks.visitDiagram_handed (renewed : Renewed (Handed .mermaid) n m) :
    Visited (visitDiagram o inLink m) r (Handed .mermaid n) True := by
  refine (visitDiagram_yields fun _ => trivial).imp fun k h => ?_
  cases h with
  | keep => exact .of_renewed renewed rfl
  | mark has =>
      cases renewed with
      | leaf => exact .of_leaf rfl rfl rfl fun p inTitle fits => rfl

namespace Stage.Tags

/-- A text that starts like a tag holds no directive. -/
theorem lineDirective?_hash (value : String) :
    Callouts.lineDirective? (Node.ofText ("#" ++ value)) = none := by
  have start : ("#" ++ value).toList = '#' :: value.toList := by simp
  have line : ∃ rest, (Callouts.splitLine ("#" ++ value)).1.toList = '#' :: rest := by
    unfold Callouts.splitLine Text.cutAt
    rw [start, List.dropWhile_cons_of_pos (by decide), List.takeWhile_cons_of_pos (by decide)]
    split
    · next found =>
        split at found
        · cases found
        · cases found
          exact ⟨_, String.toList_ofList⟩
    · exact ⟨_, start⟩
  obtain ⟨rest, same⟩ := line
  change Callout.parse? (Callouts.splitLine ("#" ++ value)).1 = none
  rw [Callout.parse?, same]
  rfl

theorem visit_handed (renewed : Renewed (Handed .parseTags) n m) :
    Visited (visit o inLink m) r (Handed .parseTags n) stuck := by
  refine visit_yields.imp fun k h => ?_
  cases h with
  | keep => exact .of_renewed renewed rfl
  | text =>
      cases renewed with
      | leaf => exact .of_leaf rfl (lineDirective?_hash _) rfl fun p inTitle fits => rfl
  | @link value info context =>
      cases renewed with
      | leaf =>
          refine .of_leaf rfl rfl rfl fun p inTitle fits => ?_
          let attrs : Record := [(.str "class", .list [.str "tag-link"])]
          have named : attrs.Named := (nameable_single rfl _).named
          have page : isMissed ("a", attrList (linkRecord (context.tagUrl (Slug.ofTag value)) none
              [(attrsKey, .map attrs)])) = false :=
            isMissed_link_of_none (.inr rfl) named rfl (MediaUrl.isAppLink_tagUrl context _)
          change false = (((p.set .parseTags false).meets inTitle).missesLink
            (context.tagUrl (Slug.ofTag value)) none [(attrsKey, .map attrs)] || false)
          rw [Options.missesLink, page, Bool.and_false]
          rfl

end Stage.Tags

namespace Stage.Callouts

/-- Nothing that a title misses is still taken care of. -/
theorem meets_title (fits : Fits .callouts p inTitle) :
    (p.set .callouts false).meets true = Options.none := by
  have off : (fun g => (p.set .callouts false).enabled g && Options.isEarly g) = fun _ => false := by
    funext g
    cases early : Options.isEarly g with
    | false => rw [Bool.and_false]
    | true => rw [Options.enabled_set, fits.before rfl g early, ite_self, Bool.false_and]
  rw [Options.meets, if_pos rfl, off]
  rfl

theorem showsAny_title (fits : Fits .callouts p inTitle) (ns : List Node) :
    showsAny Options.none.missing .flow true ns =
      showsAny (p.set .callouts false).missing .flow true ns := by
  refine showsAny_congr fun n _ => shows_congr ?_ ?_ n true ?_ ?_
  · change false = (p.set .callouts false).enabled .highlight
    rw [Options.enabled_set, fits.before rfl .highlight rfl, ite_self]
  · rfl
  · intro t l info reach _
    rw [reach rfl]
    change (Options.none.meets true).missesLeaf l info = _
    rw [Options.meets_none, ← meets_title fits]
    rfl
  · intro t url title cs info reach _
    rw [reach rfl]
    change (Options.none.meets true).missesLink url title info = _
    rw [Options.meets_none, ← meets_title fits]
    rfl

theorem showsAny_titleNodes (d : Callout.Directive) (siblings : List Node) :
    showsAny p.missing .flow inTitle (titleNodes d siblings) =
      showsAny p.missing .flow inTitle siblings := by
  unfold titleNodes
  split
  · split
    · next none => rw [List.isEmpty_iff.mp none]; rfl
    · rfl
  · split
    · next none => rw [List.isEmpty_iff.mp none]; rfl
    · rfl

theorem showsAny_body (off : p.enabled .callouts = false) (opening : Opening) (title : String) :
    showsAny p.missing .flow inTitle (body opening title) =
      (missed (Callout.titleMarkup ("<p>" ++ title ++ "</p>") opening.directive.collapsible) ||
        showsAny p.missing .flow inTitle opening.rest) := by
  have titles : p.missing.titles = false := off
  have wrapped : p.misses inTitle (wrapper opening.rest) =
      showsAny p.missing .flow inTitle opening.rest := by
    rw [Options.misses, wrapper, shows, titles]
    rfl
  have text : showsAny p.missing .flow inTitle (if opening.remaining.isEmpty then []
      else [Node.paragraph [Node.ofText opening.remaining]]) = false := by split <;> rfl
  have rest :
      showsAny p.missing .flow inTitle (if opening.rest.isEmpty then [] else [wrapper opening.rest]) =
        showsAny p.missing .flow inTitle opening.rest := by
    split
    · next none => rw [List.isEmpty_iff.mp none]
    · rw [← wrapped, showsAny, showsAny, Bool.or_false]
      rfl
  rw [body, showsAny_append, showsAny_append, text, rest, Bool.or_false]
  rw [showsAny, showsAny, Bool.or_false]
  rfl

theorem visit_handed (sound : SoundTree True False m) (renewed : Renewed (Handed .callouts) n m) :
    Visited (visit o inLink m) r (Handed .callouts n) True := by
  refine (visit_yields (fun _ _ _ _ _ _ => trivial) fun _ => trivial).imp fun k h => ?_
  cases h with
  | keep closed => exact .of_renewed renewed closed
  | @rebuild ds info opening title as unkeyed opened rendered has =>
      cases renewed with
      | @branch _ _ cs _ related =>
          refine ⟨rfl, fun _ _ _ _ => ⟨rfl, rfl⟩, fun p inTitle fits => ?_⟩
          have opens : Callouts.opens (.branch .blockQuote cs info) = true := by
            rw [← Handed.opens_quote related fits fits.on, Callouts.opens, unkeyed, opened]
            rfl
          have on : p.missing.titles = true := fits.on
          have off : (p.set .callouts false).enabled .callouts = false := rfl
          have nodes := titleNodes_sound opening.directive
            (opening_sound opened fun n hn => sound.child hn).1
          have shown := (Callout.titleMarkup_shows (ofInline_tells true nodes rendered)
            opening.directive.collapsible).missed
          -- the title is markup from here on, so the stages to come no longer count for it
          rw [showsAny_titleNodes, showsAny_title fits] at shown
          have quote : (p.set .callouts false).misses inTitle
              ((Node.branch .blockQuote (body opening title)
                (info.set calloutKey opening.directive.toValue)).styled as opening.directive.attributes) =
              showsAny (p.set .callouts false).missing .flow inTitle (body opening title) := by
            have titles : (p.set .callouts false).missing.titles = false := rfl
            rw [Options.misses, styled, withInfo, shows, titles]
            rfl
          obtain ⟨content, textInfo, firstInfo, rfl⟩ := opening?_eq_some opened
          rw [quote, showsAny_body off, shown, Options.misses, shows, on, opens]
          change showsOpening p.missing inTitle cs = _
          rw [Handed.showsOpening_eq related fits fits.on, showsOpening]
          rfl

end Stage.Callouts

end NoteMarkup
