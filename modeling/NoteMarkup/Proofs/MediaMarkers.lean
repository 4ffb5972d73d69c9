import NoteMarkup.Proofs.FreshIds
import NoteMarkup.Proofs.LoneMarkers
import NoteMarkup.Proofs.MediaVisits

/-! Turning markers into ids leaves what a tree misses: an id is neither an address nor a class, and
all that is dropped is text. -/

namespace NoteMarkup

open Html Node Stage Stage.Blocks

variable {p : Options} {here : Place} {inTitle : Bool} {n m : Node} {ns : List Node} {as info : Record}

theorem Node.place_of_kind (h : m.kind = n.kind) : m.place = n.place := by
  have byKind (n : Node) : n.place =
      if n.kind = .tableRow then .row else if n.kind = .tableCell then .cell else .flow := by
    cases n with
    | leaf l => cases l <;> rfl
    | branch c => cases c <;> rfl
    | table => rfl
  rw [byKind, byKind, h]

namespace Stage.Blocks

/-- What a node is given makes no difference as long as it says the same of images and links. -/
theorem misses_withInfo (off : p.enabled .callouts = false)
    (image : ∀ url alt title, isMissed ("img", attrList (imageRecord url alt title info)) =
      isMissed ("img", attrList (imageRecord url alt title n.info)))
    (link : ∀ url title, isMissed ("a", attrList (linkRecord url title info)) =
      isMissed ("a", attrList (linkRecord url title n.info))) :
    p.misses inTitle (n.withInfo info) = p.misses inTitle n := by
  have titles : p.missing.titles = false := off
  cases n with
  | leaf l i =>
      cases l with
      | image url alt title =>
          change (p.meets inTitle).missesImage url alt title info =
            (p.meets inTitle).missesImage url alt title i
          rw [Options.missesImage, Options.missesImage]
          exact congrArg _ (image url alt title)
      | _ => rfl
  | table header rows al i => cases header <;> rfl
  | branch c cs i =>
      cases c with
      | link url title =>
          have own : (p.meets inTitle).missesLink url title info =
              (p.meets inTitle).missesLink url title i := by
            rw [Options.missesLink, Options.missesLink]
            exact congrArg _ (link url title)
          exact congrArg (· || _) own
      | blockQuote =>
          rw [Options.misses, Options.misses, withInfo, shows, shows, titles]
          rfl
      | _ => rfl

/-- An id is neither an address nor a class. -/
theorem misses_named (off : p.enabled .callouts = false) (has : HasAttrs n.info as) (names : as.Named)
    (id : String) : p.misses inTitle (named id n) = p.misses inTitle n := by
  have has' : HasAttrs (named id n).info (as.set idKey (.str id)) := hasAttrs_named has
  have names' : Record.Named (as.set idKey (.str id)) :=
    names.merge (s := [(idKey, .str id)]) (nameable_single rfl (.str id)).named
  have same {base : Record} {key : String} (other : "id" ≠ key) :
      (base.merge (as.set idKey (.str id))).get? (.str key) = (base.merge as).get? (.str key) :=
    Record.get?_merge_set_of_ne names other
  rw [named_eq has, info_withInfo] at has'
  rw [named_eq has]
  refine misses_withInfo off (fun url alt title => ?_) fun url title => ?_
  · rw [isMissed_image (given_named has' names'), isMissed_image (given_named has names), imageRecord,
      imageRecord, given_of_hasAttrs has', given_of_hasAttrs has, same (by decide)]
  · rw [isMissed_link (given_named has' names'), isMissed_link (given_named has names), linkRecord,
      linkRecord, given_of_hasAttrs has', given_of_hasAttrs has, same (by decide), same (by decide)]

theorem misses_plain (off : p.enabled .callouts = false) :
    p.misses inTitle (plain n) = p.misses inTitle n := by
  have same : given (n.info.erase markerKey) = given n.info := by
    unfold given attrsOf
    rw [attrsKey, markerKey, Record.get?_erase_of_ne (by decide)]
  refine misses_withInfo off (fun url alt title => ?_) fun url title => ?_
  · rw [imageRecord, imageRecord, same]
  · rw [linkRecord, linkRecord, same]

/-- A block whose attributes have names, and that misses nothing if it is only a marker. -/
structure Markable (p : Options) (inTitle : Bool) (n : Node) : Prop where
  named : ∃ as, HasAttrs n.info as ∧ as.Named
  lone : ∀ id, marker? n = some id → p.misses inTitle n = false

theorem misses_fateBefore (off : p.enabled .callouts = false) (h : ∃ as, HasAttrs n.info as ∧ as.Named)
    (later : List Node) :
    p.misses inTitle ((fateBefore later).apply (plain n)) = p.misses inTitle n := by
  obtain ⟨as, has, names⟩ := h
  unfold fateBefore
  split
  · exact misses_plain off
  · next id _ =>
      rw [Fate.apply, misses_named off (hasAttrs_plain.mpr has) names, misses_plain off]

theorem place_fateBefore (later : List Node) : ((fateBefore later).apply (plain n)).place = n.place := by
  refine place_of_kind ?_
  unfold fateBefore
  split
  · exact kind_plain n
  · rw [Fate.apply, kind_named, kind_plain]

theorem showsAny_cons_congr {ms : List Node} (place : m.place = n.place)
    (same : p.misses inTitle m = p.misses inTitle n)
    (later : showsAny p.missing here inTitle ms = showsAny p.missing here inTitle ns) :
    showsAny p.missing here inTitle (m :: ms) = showsAny p.missing here inTitle (n :: ns) := by
  rw [Options.misses, Options.misses] at same
  rw [showsAny, showsAny, place, same, later]

/-- Handing on ids leaves what the blocks miss. -/
theorem showsAny_handOnAfter (off : p.enabled .callouts = false)
    (ready : ∀ n ∈ ns, Markable p inTitle n) :
    showsAny p.missing here inTitle (handOnAfter ns) = showsAny p.missing here inTitle ns := by
  induction ns with
  | nil => rfl
  | cons n ns ih =>
      obtain ⟨first, later⟩ := List.forall_mem_cons.mp ready
      rw [handOnAfter]
      split
      · exact showsAny_cons_congr (place_fateBefore ns) (misses_fateBefore off first.named ns) (ih later)
      · next id marker =>
          have nothing : shows p.missing inTitle n = false := first.lone id marker
          rw [ih later, showsAny, nothing, Bool.and_false, Bool.false_or]

theorem showsAny_handOn (off : p.enabled .callouts = false) (ready : ∀ n ∈ ns, Markable p inTitle n) :
    showsAny p.missing here inTitle (handOn ns) = showsAny p.missing here inTitle ns := by
  cases ns with
  | nil => rfl
  | cons n ns =>
      obtain ⟨first, later⟩ := List.forall_mem_cons.mp ready
      exact showsAny_cons_congr (place_fateBefore ns) (misses_fateBefore off first.named ns)
        (showsAny_handOnAfter off later)

/-- A paragraph gives its id away and keeps its content. -/
theorem showsAny_giveFirst (c : Container) (ns : List Node) :
    showsAny p.missing here inTitle (giveFirst c ns) = showsAny p.missing here inTitle ns := by
  cases ns with
  | nil => rfl
  | cons n ns =>
      rw [giveFirst]
      split
      · next gives =>
          obtain ⟨content, info, rfl⟩ := eq_of_gives gives
          unfold nameless
          split
          · rfl
          · split <;> rfl
      · rfl

/-- Of containers only links are judged by what they are given. -/
theorem misses_branch_info (off : p.enabled .callouts = false) {c : Container} (other : c.kind ≠ .link)
    (cs : List Node) (i j : Record) :
    p.misses inTitle (.branch c cs i) = p.misses inTitle (.branch c cs j) := by
  have titles : p.missing.titles = false := off
  cases c with
  | link => exact (other rfl).elim
  | blockQuote =>
      rw [Options.misses, Options.misses, shows, shows, titles]
      rfl
  | _ => rfl

theorem misses_named_branch (off : p.enabled .callouts = false) {c : Container} (other : c.kind ≠ .link)
    (id : String) (cs : List Node) (info : Record) :
    p.misses inTitle (named id (.branch c cs info)) = p.misses inTitle (.branch c cs info) := by
  unfold named withAttrs
  cases addAttrs [(idKey, .str id)] (Node.branch c cs info).info with
  | error e => rfl
  | ok i => exact misses_branch_info off other cs i info

theorem misses_closed (off : p.enabled .callouts = false) {c : Container} (other : c.kind ≠ .link)
    (ns : List Node) (info : Record) :
    p.misses inTitle (closed c ns info) = p.misses inTitle (.branch c (giveFirst c ns) info) := by
  unfold closed
  split
  · rfl
  · exact misses_named_branch off other _ _ _

/-- The text of a marker is a text. -/
theorem misses_readParagraph (off : p.enabled .callouts = false) (content : List Node) (info : Record) :
    p.misses inTitle (readParagraph content info) = showsAny p.missing .flow inTitle content := by
  unfold readParagraph
  cases found : trailing? content with
  | none => rfl
  | some marker =>
      dsimp only
      split
      · rfl
      · obtain ⟨front, text, textInfo, rfl, -⟩ := eq_of_trailing? found
        have cut : showsAny p.missing .flow inTitle
            (if marker.text.isEmpty then [] else [Node.ofText marker.text]) = false := by split <;> rfl
        have whole : showsAny p.missing .flow inTitle [Node.leaf (.text text) textInfo] = false := rfl
        rw [unmarked, misses_named_branch off (by decide)]
        change showsAny p.missing .flow inTitle _ = _
        rw [List.dropLast_concat, showsAny_append, showsAny_append, cut, whole]

theorem mark_sound (sound : SoundTree True False n) (unnamed : All Unnamed n) :
    SoundTree True False (mark n) := by
  have unmarked : All Unmarked n := fun m hm => (unnamed m hm).unmarked
  obtain ⟨_, s, ran, rfl, -⟩ :=
    (transform_runs Options.none n .keep false ⟨Context.new "" none, []⟩ unmarked).exists_ok
  have kept := (builtin_run_sound (s := blockReferences) (by simp [builtin]) sound).ok _ _ ran
  obtain ⟨m, same, sound, -⟩ := kept
  cases same
  exact sound

theorem misses_branch_congr (off : p.enabled .callouts = false) {c : Container} {cs ds : List Node}
    (same : ∀ here, showsAny p.missing here inTitle ds = showsAny p.missing here inTitle cs) :
    p.misses inTitle (.branch c ds info) = p.misses inTitle (.branch c cs info) := by
  have titles : p.missing.titles = false := off
  rw [Options.misses, Options.misses]
  cases c with
  | link url title => rw [shows, shows, same]
  | highlight => rw [shows, shows, same]
  | blockQuote =>
      rw [shows, shows, titles]
      exact same .flow
  | tableRow => exact same .cell
  | _ => exact same .flow

theorem showsAny_markAll (each : ∀ n ∈ ns, p.misses inTitle (mark n) = p.misses inTitle n) :
    showsAny p.missing here inTitle (markAll ns) = showsAny p.missing here inTitle ns := by
  induction ns with
  | nil => rfl
  | cons n ns ih =>
      obtain ⟨first, later⟩ := List.forall_mem_cons.mp each
      exact showsAny_cons_congr (place_of_kind (kind_mark n)) first (ih later)

theorem markable_mark (sound : SoundTree True False n) (unnamed : All Unnamed n) :
    Markable p inTitle (mark n) where
  named := by
    obtain ⟨as, has, usable⟩ := (mark_sound sound unnamed).self.attrs
    exact ⟨as, has, (usable.nameable trivial).named⟩
  lone id marker := by
    obtain ⟨text, textInfo, info, same⟩ := mark_of_marker unnamed.self.unmarked marker
    rw [same]
    rfl

/-- Blocks miss with their ids what they missed with their markers. -/
theorem misses_mark (off : p.enabled .callouts = false) (n : Node) (sound : SoundTree True False n)
    (unnamed : All Unnamed n) : p.misses inTitle (mark n) = p.misses inTitle n := by
  induction n using Node.induct with
  | leaf l info => rfl
  | table header rows al info hheader hrows =>
      have ofRows : showsAny p.missing .row inTitle (markAll rows) =
          showsAny p.missing .row inTitle rows := showsAny_markAll fun r hr =>
        hrows r hr (sound.child (List.mem_append_right _ hr)) (unnamed.child (List.mem_append_right _ hr))
      cases header with
      | none => exact ofRows
      | some header =>
          have first : header ∈ (Node.table (some header) rows al info).children := List.mem_cons_self
          rw [mark, Options.misses, Options.misses, shows_table, shows_table]
          exact showsAny_cons_congr (place_of_kind (kind_mark header))
            (hheader header rfl (sound.child first) (unnamed.child first)) ofRows
  | branch c cs info ih =>
      have content (here : Place) : showsAny p.missing here inTitle (markAll cs) =
          showsAny p.missing here inTitle cs :=
        showsAny_markAll fun n hn => ih n hn (sound.child hn) (unnamed.child hn)
      by_cases paragraph : c = .paragraph
      · subst paragraph
        rw [mark, markBranch, misses_readParagraph off, content]
        rfl
      · rw [mark, markBranch_of_ne paragraph]
        split
        · next hands =>
            have other : c.kind ≠ .link := by rintro link; cases c <;> cases link; cases hands
            -- what is dropped among the children is a marker, and that is a text
            have markable : ∀ m ∈ markAll cs, Markable p inTitle m := by
              rw [markAll_eq_map]
              intro m hm
              obtain ⟨n, hn, rfl⟩ := List.mem_map.mp hm
              exact markable_mark (sound.child hn) (unnamed.child hn)
            rw [misses_closed off other]
            refine misses_branch_congr off fun here => ?_
            rw [showsAny_giveFirst, showsAny_handOn off markable, content]
        · exact misses_branch_congr off content

theorem mark_handed (sound : SoundTree True False n) (unnamed : All Unnamed n) :
    Handed .parseBlockReferences n (mark n) := by
  refine ⟨place_of_kind (kind_mark n), fun p inTitle fits callouts => ?_, fun p inTitle fits => ?_⟩
  · rw [(fits.after rfl (by decide)).1] at callouts
    cases callouts
  · have off := (fits.after rfl (by decide)).1
    have same : (p.set .parseBlockReferences false).misses inTitle n = p.misses inTitle n := by
      rw [Options.misses, Options.misses]
      refine shows_congr ?_ ?_ n inTitle (fun t l info _ _ => ?_) fun t url title cs info _ _ => ?_
      · rfl
      · rfl
      · exact (missesLeaf_apart fits.resolved rfl).symm
      · have apart : Flag.alters .parseBlockReferences (.branch (.link url title) cs info) = false := rfl
        exact (missesLink_apart apart).symm
    rw [misses_mark (p := p.set .parseBlockReferences false) off n sound unnamed, same]

end Stage.Blocks

end NoteMarkup
