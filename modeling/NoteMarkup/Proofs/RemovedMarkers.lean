import NoteMarkup.Proofs.BlockTargets

/-! What the stage that turns markers into ids takes out of a tree. It cuts the markers off and drops the
paragraphs that are nothing else. All the rest stays as it was, ids apart. -/

namespace NoteMarkup.Stage.Blocks

open BlockMarker Node Text

variable {n m k : Node} {c : Container} {cs ks new out : List Node} {info own as bs : Record} {v : Value}
  {r : Run}

/-- The information without the id. Attributes of which nothing is left count as none. -/
def withoutId (info : Record) : Record :=
  match info.get? attrsKey with
  | some (.map as) =>
    if (Record.erase as idKey).isEmpty then info.erase attrsKey
    else info.set attrsKey (.map (Record.erase as idKey))
  | _ => info

theorem withoutId_eq (h : HasAttrs info as) : withoutId info =
    if (as.erase idKey).isEmpty then info.erase attrsKey
    else info.set attrsKey (.map (as.erase idKey)) := by
  unfold withoutId
  rcases h with ⟨none, rfl⟩ | some
  · rw [none]
    exact (Entries.erase_eq_self none).symm
  · rw [some]

/-- Attributes that differ in the id alone leave the same information. -/
theorem withoutId_set (h : HasAttrs info as) (same : bs.erase idKey = as.erase idKey) :
    withoutId (info.set attrsKey (.map bs)) = withoutId info := by
  have erased : (info.set attrsKey (.map bs)).erase attrsKey = info.erase attrsKey :=
    Entries.erase_insert_self info "render_attrs" (.map bs)
  rw [withoutId_eq (.set_self info bs), withoutId_eq h, same, erased, set_set_attrs]

theorem get?_withoutId (info : Record) : (withoutId info).get? markerKey = info.get? markerKey := by
  unfold withoutId
  split
  · split
    · exact Record.get?_erase_of_ne (by decide)
    · exact Record.get?_set_of_ne (by decide)
  · rfl

/-- What is left of the content of a paragraph. -/
inductive Trimmed (content : List Node) : List Node → Prop
  /-- Content stays if it ends in no marker, or is one text that is nothing but a marker. -/
  | keep : (∀ before text info front id, content = before ++ [.leaf (.text text) info] →
      Ends front id text.toList → before = [] ∧ trimRight front = []) → Trimmed content content
  /-- A last text loses its marker and the blanks before that. -/
  | cut {before : List Node} {text : String} {info : Record} {front id : List Char} :
      content = before ++ [.leaf (.text text) info] → Ends front id text.toList →
      trimRight front ≠ [] → Trimmed content (before ++ [ofText (String.ofList (trimRight front))])
  /-- A last text that is nothing but a marker goes if there is something before it. -/
  | drop {before : List Node} {text : String} {info : Record} {front id : List Char} :
      content = before ++ [.leaf (.text text) info] → Ends front id text.toList →
      trimRight front = [] → before ≠ [] → Trimmed content before

/-- The blocks without the paragraphs that are nothing but a marker. The first block stays, so all others
have a block before them that does. -/
def blocksLeft : List Node → List Node
  | [] => []
  | n :: ns => n :: ns.filter fun k => (loneId? k).isNone

/-- What is left of the children of a container. -/
inductive Left : Container → List Node → List Node → Prop
  | content {cs ks : List Node} : Trimmed cs ks → Left .paragraph cs ks
  | blocks {c : Container} (cs : List Node) : handsOn c = true → Left c cs (blocksLeft cs)
  | all {c : Container} (cs : List Node) : c ≠ .paragraph → handsOn c = false → Left c cs cs

/-- The second tree is the first one without its markers, ids apart. -/
inductive Cleared : Node → Node → Prop
  | leaf (l : Leaf) {info own : Record} : withoutId own = withoutId info →
      Cleared (.leaf l info) (.leaf l own)
  | branch {c : Container} {cs ks new : List Node} {info own : Record} : Left c cs ks →
      List.Forall₂ Cleared ks new → withoutId own = withoutId info →
      Cleared (.branch c cs info) (.branch c new own)
  | table (al : List (Option String)) {header header' : Option Node} {rows new : List Node}
      {info own : Record} : Option.Rel Cleared header header' → List.Forall₂ Cleared rows new →
      withoutId own = withoutId info →
      Cleared (.table header rows al info) (.table header' new al own)

theorem Cleared.withInfo (h : Cleared n m) (same : withoutId own = withoutId m.info) :
    Cleared n (m.withInfo own) := by
  cases h with
  | leaf l kept => exact .leaf l (same.trans kept)
  | branch left related kept => exact .branch left related (same.trans kept)
  | table al header rows kept => exact .table al header rows (same.trans kept)

theorem Left.mem (h : Left c cs ks) (hk : k ∈ ks) : k ∈ cs ∨ ∃ text, k = ofText text := by
  cases h with
  | content trimmed =>
      cases trimmed with
      | keep => exact .inl hk
      | cut split _ _ =>
          rcases List.mem_append.mp hk with before | last
          · exact .inl (split ▸ List.mem_append_left _ before)
          · exact .inr ⟨_, List.mem_singleton.mp last⟩
      | drop split _ _ _ => exact .inl (split ▸ List.mem_append_left _ hk)
  | blocks =>
      cases cs with
      | nil => cases hk
      | cons n ns =>
          rcases List.mem_cons.mp hk with rfl | later
          · exact .inl List.mem_cons_self
          · exact .inl (List.mem_cons_of_mem _ (List.mem_of_mem_filter later))
  | all => exact .inl hk

/-- Nothing that the stage leaves holds an id for another block. -/
theorem Cleared.unheld (h : Cleared n m) (clean : All (fun k => k.info.get? markerKey = none) n) :
    All (fun k => k.info.get? markerKey = none) m := by
  have root {info own : Record} (same : withoutId own = withoutId info)
      (unheld : info.get? markerKey = none) : own.get? markerKey = none := by
    rw [← get?_withoutId own, same, get?_withoutId, unheld]
  induction m using induct_children generalizing n with
  | step m ih =>
      cases h with
      | leaf l same => exact all_leaf.mpr (root same clean.self)
      | branch left related same =>
          refine all_branch.mpr ⟨root same clean.self, fun b hb => ?_⟩
          obtain ⟨a, ha, cleared⟩ := exists_of_mem_right related hb
          refine ih b hb cleared ?_
          rcases left.mem ha with child | ⟨text, rfl⟩
          · exact clean.child child
          · exact all_leaf.mpr rfl
      | table al ofHeader ofRows same =>
          refine all_table.mpr ⟨root same clean.self, fun b hb => ?_, fun b hb => ?_⟩
          · cases ofHeader with
            | none => cases hb
            | some cleared =>
                cases hb
                exact ih _ List.mem_cons_self cleared (clean.child List.mem_cons_self)
          · obtain ⟨a, ha, cleared⟩ := exists_of_mem_right ofRows hb
            exact ih b (List.mem_append_right _ hb) cleared (clean.child (List.mem_append_right _ ha))

/-- A node as it is before the stage: its attributes are a map, its id can be the key of a map, and it
holds no id for another block. -/
structure Tidy (n : Node) : Prop where
  styled : Styled n
  id : ∀ v, idOf? n = some v → v.isKey = true
  marker : n.info.get? markerKey = none

theorem Tidy.congr (h : Tidy n) (same : m.info = n.info) : Tidy m :=
  ⟨h.styled.congr same, idOf?_congr same ▸ h.id, same ▸ h.marker⟩

/-- A node whose children are tidy, and that holds paragraphs only if it is a document, a quote or an item
of a list. The node itself has to be tidy as far as the stage reads it. -/
structure Orderly (n : Node) : Prop where
  marker : n.info.get? markerKey = none
  styled : n.kind ∈ [Kind.paragraph, .listItem] → Styled n
  tidy : ∀ c ∈ n.children, Tidy c
  placed : ∀ c ∈ n.children, c.kind = .paragraph → n.kind ∈ [Kind.document, .blockQuote, .listItem]

/-- What the stage has made of a node when its children are done. An id for another block waits. -/
structure Done (n m : Node) : Prop where
  cleared : Cleared n (plain m)
  marker : m.info.get? markerKey = (loneId? n).map .str
  tidy : Tidy n → Tidy (plain m)

/-- What the stage has made of a block when ids have been handed on. -/
structure Settled (n m : Node) : Prop where
  cleared : Cleared n m
  tidy : Tidy m

theorem loneId?_of_kind (h : n.kind ≠ .paragraph) : loneId? n = none := by
  rw [Option.eq_none_iff_forall_ne_some]
  intro id lone
  obtain ⟨text, textInfo, info, marker, rfl, -⟩ := loneId?_eq_some.mp lone
  exact h rfl

theorem Done.plain_eq (h : Done n m) (other : n.kind ≠ .paragraph) : plain m = m :=
  plain_eq_self (by rw [h.marker, loneId?_of_kind other]; rfl)

theorem Done.of_cleared (cleared : Cleared n m) (lone : loneId? n = none)
    (marker : m.info.get? markerKey = none) (tidy : Tidy n → Tidy m) : Done n m := by
  have same := plain_eq_self marker
  exact ⟨same.symm ▸ cleared, by rw [marker, lone]; rfl, same.symm ▸ tidy⟩

theorem Cleared.named (h : Cleared n m) (has : HasAttrs m.info as) (v : Value) :
    Cleared n (m.styled as [(idKey, v)]) :=
  h.withInfo (withoutId_set has (Entries.erase_insert_self as "id" v))

theorem marker_styled (m : Node) (as new : Record) :
    (m.styled as new).info.get? markerKey = m.info.get? markerKey := by
  rw [Node.styled, info_withInfo]
  exact Record.get?_set_of_ne (by decide)

theorem Tidy.named (h : Tidy m) (as : Record) (key : v.isKey = true) :
    Tidy (m.styled as [(idKey, v)]) := by
  have attrs : HasAttrs (m.styled as [(idKey, v)]).info (as.set idKey v) := by
    rw [Node.styled, info_withInfo]
    exact .set_self _ _
  refine ⟨⟨_, attrs⟩, fun w hw => ?_, ?_⟩
  · rw [idOf?_eq attrs, idKey, Record.get?_set_self] at hw
    exact Option.some.inj hw ▸ key
  · rw [marker_styled, h.marker]

theorem Done.of_lone {id : String} (cleared : Cleared n m) (lone : loneId? n = some id)
    (free : m.info.get? markerKey = none) (tidy : Tidy n → Tidy m) :
    Done n (m.withInfo (m.info.set markerKey (.str id))) := by
  have same : plain (m.withInfo (m.info.set markerKey (.str id))) = m := by
    have erased : (m.info.set markerKey (.str id)).erase markerKey = m.info :=
      (Entries.erase_insert_self m.info "block_reference" _).trans (Entries.erase_eq_self free)
    rw [plain, info_withInfo, erased, withInfo_withInfo, withInfo_info]
  refine ⟨same.symm ▸ cleared, ?_, same.symm ▸ tidy⟩
  rw [info_withInfo, lone]
  exact Record.get?_set_self m.info "block_reference" (.str id)

theorem attach_settles {ns : List Node} (related : List.Forall₂ Done ns new) (tidy : ∀ n ∈ ns, Tidy n) :
    ∀ {k m : Node} {earlier before : List Node} {r : Run}, Settled k m →
      List.Forall₂ Settled earlier before →
      (attach (m :: before) new).Yields r (fun out _ => List.Forall₂ Settled
        (earlier.reverse ++ k :: ns.filter fun n => (loneId? n).isNone) out) False := by
  -- the last block that is done changes with each lone marker, so it is general in the induction
  induction related with
  | nil =>
      intro k m earlier before r last done
      refine .pure ?_
      have reversed := List.rel_reverse (List.Forall₂.cons last done)
      rwa [List.reverse_cons] at reversed
  | @cons n n' ns new ofHead _ ih =>
      intro k m earlier before r last done
      obtain ⟨ofNode, ofRest⟩ := List.forall_mem_cons.mp tidy
      cases lone : loneId? n with
      | none =>
          have unmarked : n'.info.get? markerKey = none := by
            rw [ofHead.marker, lone]
            rfl
          rw [attach_unmarked unmarked, List.filter_cons_of_pos (by rw [lone]; rfl)]
          refine (ih ofRest ⟨ofHead.cleared, ofHead.tidy ofNode⟩ (.cons last done)).mono ?_
          intro out s settled
          rwa [List.reverse_cons, List.append_assoc] at settled
      | some id =>
          have marked : n'.info.get? markerKey = some (.str id) := by
            rw [ofHead.marker, lone]
            rfl
          rw [attach_marked marked, List.filter_cons_of_neg (by rw [lone]; nofun)]
          refine (register_yields (by rintro ⟨⟩) fun none => none last.tidy.styled).bind ?_
          rintro _ s ⟨key, -, as, has, rfl⟩
          exact ih ofRest ⟨last.cleared.named has _, last.tidy.named as key⟩ done

theorem attach_blocks {ns : List Node} (related : List.Forall₂ Done ns new) (tidy : ∀ n ∈ ns, Tidy n) :
    (attach [] new).Yields r (fun out _ => List.Forall₂ Settled (blocksLeft ns) out) False := by
  cases related with
  | nil => exact .pure .nil
  | @cons n m ns new ofHead ofRest =>
      obtain ⟨first, rest⟩ := List.forall_mem_cons.mp tidy
      have held : m.info.get? markerKey = none ∨ ∃ id, m.info.get? markerKey = some (.str id) := by
        rw [ofHead.marker]
        cases loneId? n with
        | none => exact .inl rfl
        | some id => exact .inr ⟨id, rfl⟩
      rw [attach_first held]
      exact attach_settles ofRest rest ⟨ofHead.cleared, ofHead.tidy first⟩ .nil

/-- An item that takes over the id of its first paragraph loses nothing else. -/
theorem adoptId_settles {mark : Option TaskMark} (related : List.Forall₂ Settled (blocksLeft cs) out)
    (styled : Styled (.branch (.listItem mark) out info)) :
    (adoptId mark out info).Yields r (fun m _ => Cleared (.branch (.listItem mark) cs info) m ∧
      m.info.get? markerKey = info.get? markerKey ∧
      (Tidy (.branch (.listItem mark) cs info) → Tidy m)) False := by
  have item {out : List Node} (cleared : List.Forall₂ Cleared (blocksLeft cs) out) :
      Cleared (.branch (.listItem mark) cs info) (.branch (.listItem mark) out info) :=
    .branch (.blocks cs rfl) cleared rfl
  have kept : List.Forall₂ Cleared (blocksLeft cs) out := related.imp fun _ _ settled => settled.cleared
  unfold adoptId
  dsimp only
  split
  · next content firstInfo rest =>
      obtain ⟨k, ks, ⟨first, tidy⟩, later, blocks⟩ := List.forall₂_cons_right_iff.mp related
      obtain ⟨as, has⟩ := tidy.styled
      refine .bind_of_outcome (s := r) (a := as) ?_ (.refl _) ?_
      · have readable : attrsOf firstInfo = .ok as := has.attrsOf
        rw [readable, StageM.outcome_ofExcept_ok]
      · split
        · exact .pure ⟨item kept, rfl, fun tidy => tidy.congr rfl⟩
        · next id present =>
            -- the id leaves the paragraph before it is given to the item
            have given : as.get? idKey = some ((as.get? idKey).getD .null) := by
              cases known : as.get? idKey with
              | none => exact (present (by rw [known]; rfl)).elim
              | some v => rfl
            have key := tidy.id _ ((idOf?_eq has).trans given)
            rw [key]
            refine .bind_modifyContext ?_
            have nameless : Cleared k (.branch .paragraph content
                (firstInfo.set attrsKey (.map (as.erase idKey)))) :=
              first.withInfo (withoutId_set has (Entries.erase_eq_self (Entries.get?_erase_self as "id")))
            generalize firstInfo.set attrsKey (.map (as.erase idKey)) = firstOwn at nameless ⊢
            have moved : List.Forall₂ Cleared (blocksLeft cs)
                (.branch .paragraph content firstOwn :: rest) := by
              rw [blocks]
              exact .cons nameless (later.imp fun _ _ settled => settled.cleared)
            have base : Styled (.branch (.listItem mark)
                (.branch .paragraph content firstOwn :: rest) info) := styled.congr rfl
            refine (register_yields (by rw [key]; nofun) fun none => none base).mono ?_
            rintro _ s ⟨-, -, own, has, rfl⟩
            refine ⟨(item moved).named has _, marker_styled _ _ _, fun tidy => Tidy.named ?_ own key⟩
            exact tidy.congr rfl
  · exact .pure ⟨item kept, rfl, fun tidy => tidy.congr rfl⟩

section Paragraph

theorem exists_concat_of_forall₂ {α β : Type} {R : α → β → Prop} {as : List α} {a : α} {bs : List β}
    (h : List.Forall₂ R (as ++ [a]) bs) : ∃ front b, bs = front ++ [b] ∧ List.Forall₂ R as front ∧ R a b := by
  induction as generalizing bs with
  | nil =>
      obtain ⟨b, rest, related, ⟨⟩, rfl⟩ := List.forall₂_cons_left_iff.mp h
      exact ⟨[], b, rfl, .nil, related⟩
  | cons k as ih =>
      obtain ⟨b, rest, first, later, rfl⟩ := List.forall₂_cons_left_iff.mp h
      obtain ⟨front, last, rfl, before, related⟩ := ih later
      exact ⟨b :: front, last, rfl, .cons first before, related⟩

theorem trailing?_congr (related : List.Forall₂ Cleared cs new) : trailing? new = trailing? cs := by
  rcases List.eq_nil_or_concat cs with rfl | ⟨front, n, rfl⟩
  · cases related
    rfl
  · rw [List.concat_eq_append] at related ⊢
    obtain ⟨front', m, rfl, -, last⟩ := exists_concat_of_forall₂ related
    unfold trailing?
    rw [List.getLast?_concat, List.getLast?_concat]
    cases last with
    | leaf l _ => cases l <;> rfl
    | _ => rfl

theorem trimmed_of_none (unmarked : trailing? cs = none) : Trimmed cs cs := by
  refine .keep ?_
  rintro before text info front id rfl ends
  rw [trailing?, List.getLast?_concat] at unmarked
  exact absurd ((parse?_of_ends ends).symm.trans unmarked) nofun

variable {before : List Node} {text : String} {marker : BlockMarker}

theorem trimmed_of_lone (parsed : BlockMarker.parse? text = some marker)
    (lone : isLone marker (before ++ [.leaf (.text text) own]) = true) :
    Trimmed (before ++ [.leaf (.text text) own]) (before ++ [.leaf (.text text) own]) := by
  obtain ⟨empty, rfl⟩ : marker.text.isEmpty = true ∧ before = [] := by simpa [isLone] using lone
  refine .keep ?_
  intro before text' info front id content ends
  rcases List.append_eq_singleton_iff.mp content.symm with ⟨rfl, last⟩ | ⟨-, ⟨⟩⟩
  cases last
  rw [parse?_of_ends ends] at parsed
  cases parsed
  exact ⟨rfl, by simpa using empty⟩

theorem trimmed_of_marker (parsed : BlockMarker.parse? text = some marker)
    (more : isLone marker (before ++ [.leaf (.text text) own]) = false) :
    Trimmed (before ++ [.leaf (.text text) own])
      (before ++ if marker.text.isEmpty then [] else [ofText marker.text]) := by
  obtain ⟨rest, id⟩ := marker
  obtain ⟨front, ends, trimmed⟩ := BlockMarker.parse?_eq_some_iff.mp parsed
  obtain rfl : rest = String.ofList (trimRight front) := by rw [← trimmed, String.ofList_toList]
  cases empty : (String.ofList (trimRight front)).isEmpty with
  | true =>
      have something : before ≠ [] := by
        rintro rfl
        simp [isLone, empty] at more
      rw [if_pos rfl, List.append_nil]
      exact .drop rfl ends (by simpa using empty) something
  | false => exact .cut rfl ends (by simpa using empty)

theorem cleared_unmarked {front : List Node} (others : List.Forall₂ Cleared before front)
    (parsed : BlockMarker.parse? text = some marker)
    (more : isLone marker (before ++ [.leaf (.text text) own]) = false) :
    Cleared (.branch .paragraph (before ++ [.leaf (.text text) own]) info)
      (unmarked marker (front ++ [m]) info) := by
  unfold unmarked
  rw [List.dropLast_concat]
  refine .branch (.content (trimmed_of_marker parsed more)) (List.rel_append others ?_) rfl
  split
  · exact .nil
  · exact .cons (.leaf _ rfl) .nil

theorem loneId?_of_none (unmarked : trailing? cs = none) :
    loneId? (.branch .paragraph cs info) = none := by
  rw [Option.eq_none_iff_forall_ne_some]
  intro id lone
  obtain ⟨text, own, _, marker, same, parsed, -⟩ := loneId?_eq_some.mp lone
  obtain ⟨-, rfl, -⟩ := Node.branch.inj same
  exact absurd (parsed.symm.trans unmarked) nofun

theorem loneId?_of_parse? (parsed : BlockMarker.parse? text = some marker) :
    loneId? (.branch .paragraph (before ++ [.leaf (.text text) own]) info) =
      if isLone marker (before ++ [.leaf (.text text) own]) then some marker.id else none := by
  cases before with
  | nil => simp [loneId?, parsed, isLone]
  | cons k before =>
      have more : isLone marker (k :: before ++ [.leaf (.text text) own]) = false := by simp [isLone]
      rw [more, if_neg Bool.false_ne_true, Option.eq_none_iff_forall_ne_some]
      intro id lone
      obtain ⟨_, _, _, _, same, -⟩ := loneId?_eq_some.mp lone
      simp at same

theorem markParagraph_done (related : List.Forall₂ Cleared cs new)
    (orderly : Orderly (.branch .paragraph cs info)) :
    (markParagraph new info).Yields r (fun m _ => Done (.branch .paragraph cs info) m) False := by
  have styled : Styled (.branch .paragraph cs info) := orderly.styled List.mem_cons_self
  rw [markParagraph_eq, trailing?_congr related]
  cases found : trailing? cs with
  | none =>
      exact .pure (.of_cleared (.branch (.content (trimmed_of_none found)) related rfl)
        (loneId?_of_none found) orderly.marker fun tidy => tidy.congr rfl)
  | some marker =>
      obtain ⟨before, text, own, rfl, parsed⟩ := eq_of_trailing? found
      obtain ⟨front, m, rfl, others, last⟩ := exists_concat_of_forall₂ related
      have alone : isLone marker (front ++ [m]) = isLone marker (before ++ [.leaf (.text text) own]) := by
        simp [isLone, others.length_eq]
      dsimp only
      rw [alone]
      cases lone : isLone marker (before ++ [.leaf (.text text) own]) with
      | true =>
          rw [if_pos rfl]
          have kept : Cleared (.branch .paragraph (before ++ [.leaf (.text text) own]) info)
              (.branch .paragraph (front ++ [m]) info) :=
            .branch (.content (trimmed_of_lone parsed lone)) related rfl
          exact .pure (.of_lone kept (by rw [loneId?_of_parse? parsed, lone, if_pos rfl]) orderly.marker
            fun tidy => tidy.congr rfl)
      | false =>
          have base : Styled (unmarked marker (front ++ [m]) info) := styled.congr rfl
          rw [if_neg Bool.false_ne_true]
          refine (register_yields (by rintro ⟨⟩) fun none => none base).mono ?_
          rintro _ s ⟨key, -, as, has, rfl⟩
          refine .of_cleared ((cleared_unmarked others parsed lone).named has _) ?_ ?_ ?_
          · rw [loneId?_of_parse? parsed, lone, if_neg Bool.false_ne_true]
          · exact (marker_styled _ _ _).trans orderly.marker
          · intro tidy
            refine Tidy.named ?_ as key
            exact tidy.congr rfl

end Paragraph

theorem cleared_others (related : List.Forall₂ Done cs new) (others : ∀ n ∈ cs, n.kind ≠ .paragraph) :
    List.Forall₂ Cleared cs new := by
  have both := (List.forall₂_and_left cs new).mpr ⟨others, related⟩
  exact both.imp fun n m ⟨other, done⟩ => done.plain_eq other ▸ done.cleared

theorem Orderly.others (h : Orderly n) (place : n.kind ∉ [Kind.document, .blockQuote, .listItem]) :
    ∀ c ∈ n.children, c.kind ≠ .paragraph :=
  fun c hc paragraph => place (h.placed c hc paragraph)

/-- What a visit makes of a node whose children are done. -/
theorem visitMarker_done {o : Options} {inLink : Bool} (orderly : Orderly n) (renewed : Renewed Done n m) :
    (visitMarker o inLink m).Yields r (fun k _ => ∃ m, k = some m ∧ Done n m) False := by
  cases renewed with
  | leaf l info =>
      exact .pure ⟨_, rfl, .of_cleared (.leaf l rfl) rfl orderly.marker fun tidy => tidy⟩
  | table al info header rows =>
      obtain ⟨ofHeader, ofRows⟩ := List.forall_mem_append.mp (orderly.others (by simp [kind]))
      refine .pure ⟨_, rfl, .of_cleared (.table al ?_ (cleared_others rows ofRows) rfl) rfl orderly.marker
        fun tidy => tidy.congr rfl⟩
      cases header with
      | none => exact .none
      | some done =>
          exact .some (done.plain_eq (ofHeader _ List.mem_cons_self) ▸ done.cleared)
  | @branch c info cs new related =>
      -- paragraphs wait with their ids in the three containers that hand ids on, and nowhere else
      have blocks (hands : handsOn c = true) (lone : loneId? (.branch c cs info) = none) :
          (attach [] new >>= fun out => pure (some (Node.branch c out info))).Yields r
            (fun k _ => ∃ m, k = some m ∧ Done (.branch c cs info) m) False := by
        refine (attach_blocks related orderly.tidy).bind fun out s settled => .pure ⟨_, rfl, ?_⟩
        have left := settled.imp fun _ _ block => block.cleared
        exact .of_cleared (.branch (.blocks cs hands) left rfl) lone orderly.marker
          fun tidy => tidy.congr rfl
      cases c with
      | paragraph =>
          have content := cleared_others related (orderly.others (by simp [kind, Container.kind]))
          exact .map ((markParagraph_done content orderly).mono fun m _ done => ⟨m, rfl, done⟩)
      | document => exact blocks rfl rfl
      | blockQuote => exact blocks rfl rfl
      | listItem mark =>
          have styled : Styled (.branch (.listItem mark) cs info) :=
            orderly.styled (List.mem_cons_of_mem _ List.mem_cons_self)
          refine (attach_blocks related orderly.tidy).bind fun out s settled => .map ?_
          refine (adoptId_settles settled (styled.congr rfl)).mono ?_
          rintro m t ⟨cleared, marker, tidy⟩
          exact ⟨m, rfl, .of_cleared cleared rfl (marker.trans orderly.marker) tidy⟩
      | _ =>
          have content := cleared_others related (orderly.others (by simp [kind, Container.kind]))
          exact .pure ⟨_, rfl, .of_cleared (.branch (.all cs (by rintro ⟨⟩) rfl) content rfl) rfl orderly.marker
            fun tidy => tidy.congr rfl⟩

/-- The stage turns every orderly tree into one without its markers, and changes nothing else but ids. A
paragraph that is nothing but a marker is gone, unless it is the first block of its container; then it is
left as it was. Every other paragraph has lost the marker that it ends in, with the blanks before that. No
block holds an id for another one in the end. -/
theorem markers_removed (o : Options) {d : Node} (r : Run) (orderly : ∀ n ∈ d.nodes, Orderly n)
    (place : d.kind ≠ .paragraph) :
    ∃ m s, (visitMarker.run o d).outcome r = (.ok (some m), s) ∧ Cleared d m ∧
      ∀ k ∈ m.nodes, k.info.get? markerKey = none := by
  have visits : (visitMarker.run o d).Yields r (fun k _ => ∃ m, k = some m ∧ Done d m) False :=
    transform_yields (fun _ _ _ _ orderly renewed => visitMarker_done orderly renewed) d false r orderly
  obtain ⟨_, s, outcome, m, rfl, done⟩ := visits.exists_ok
  have cleared : Cleared d m := done.plain_eq place ▸ done.cleared
  exact ⟨m, s, outcome, cleared, cleared.unheld fun k hk => (orderly k hk).marker⟩

theorem Unmarked.tidy (h : Unmarked n) : Tidy n := by
  refine ⟨h.styled, fun v hv => ?_, h.marker⟩
  obtain ⟨id, rfl⟩ := h.id v hv
  rfl

/-- A marker at the front, one at the end of a text, two in sequence, one after a link, one in a quote that
has an id, and one in an item. -/
def scatteredMarkers : Node :=
  .branch .document
    [Node.paragraph [Node.ofText "^first"], Node.paragraph [Node.ofText "text  ^a"],
      Node.paragraph [Node.ofText "^b"], Node.paragraph [Node.ofText " ^c "],
      Node.paragraph [.branch (.link "x" none) [Node.ofText "link"] [], Node.ofText " ^d"],
      .branch .blockQuote [Node.paragraph [Node.ofText "quoted"], Node.paragraph [Node.ofText "^e"]]
        [(attrsKey, .map [(idKey, .str "old")])],
      .branch (.list false 1 true)
        [.branch (.listItem none) [Node.paragraph [Node.ofText "item ^f"]] []] []] []

theorem scatteredMarkers_removed :
    ∃ m s, (visitMarker.run Options.defaults scatteredMarkers).outcome ⟨Context.new "n" none, []⟩ =
        (.ok (some m), s) ∧ Cleared scatteredMarkers m ∧ ∀ k ∈ m.nodes, k.info.get? markerKey = none := by
  have usable : ∀ n ∈ scatteredMarkers.nodes, Pipeline.Usable n := by decide
  have placed : ∀ n ∈ scatteredMarkers.nodes, ∀ c ∈ n.children, c.kind = .paragraph →
      n.kind ∈ [Kind.document, .blockQuote, .listItem] := by decide
  refine markers_removed Options.defaults _ (fun n hn => ?_) (by decide)
  have unmarked := (usable n hn).unmarked
  exact ⟨unmarked.marker, fun _ => unmarked.styled,
    fun c hc => (usable c (child_mem_nodes hn hc)).unmarked.tidy, placed n hn⟩

end NoteMarkup.Stage.Blocks
