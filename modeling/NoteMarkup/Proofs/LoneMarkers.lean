import NoteMarkup.Proofs.BlockNaming

/-! Paragraphs that are nothing but a marker. Which paragraphs those are can be read off the tree
before the stage runs, and so can the block that gets the id of one: it stands in the marked tree with
the id, in the place of the block before the marker. -/

namespace NoteMarkup

namespace Node

variable {n m : Node} {c : Container} {cs : List Node} {info : Record}

/-- The containers that hold blocks. -/
def holdsBlocks : Container → Bool
  | .document | .blockQuote | .list _ _ _ | .listItem _ => true
  | _ => false

/-- The second node is the first or stands in it, in nothing but documents, quotes, lists and items. -/
inductive Holds : Node → Node → Prop
  | self (n : Node) : Holds n n
  | child {c : Container} {cs : List Node} {info : Record} {n m : Node} :
      holdsBlocks c = true → n ∈ cs → Holds n m → Holds (.branch c cs info) m

/-- What stands in a node stands in it whatever its information is, which can be its own. -/
theorem Holds.withInfo (h : Holds n (.branch c cs info)) (own : Record) :
    ∃ info', Holds (n.withInfo own) (.branch c cs info') := by
  cases h with
  | self => exact ⟨own, .self _⟩
  | child blocks member below => exact ⟨info, .child blocks member below⟩

theorem Holds.trans {k : Node} (h : Holds n m) (h' : Holds m k) : Holds n k := by
  induction h with
  | self => exact h'
  | child blocks member _ ih => exact .child blocks member (ih h')

theorem Holds.all_children {P : Node → Prop} (h : Holds n m) (each : ∀ k ∈ n.children, All P k) :
    ∀ k ∈ m.children, All P k := by
  induction h with
  | self => exact each
  | child _ member _ ih => exact ih fun k hk => (each _ member).child hk

theorem Holds.source (h : Holds n (.branch c cs info)) (blocks : holdsBlocks c = true) :
    n.kind ≠ .paragraph := by
  have other {d : Container} (hd : holdsBlocks d = true) : d.kind ≠ .paragraph := by
    intro paragraph
    cases d with
    | paragraph => cases hd
    | _ => cases paragraph
  cases h with
  | self => exact other blocks
  | child blocks' _ _ => exact other blocks'

end Node

namespace Stage.Blocks

open Node

variable {n m b p : Node} {id : String} {info : Record} {c : Container} {cs before after : List Node}

/-- The id that a paragraph gives to the block before it, if the paragraph is nothing but a marker. -/
def loneId? : Node → Option String
  | .branch .paragraph [.leaf (.text text) _] _ =>
    match BlockMarker.parse? text with
    | some marker => if marker.text.isEmpty then some marker.id else none
    | none => none
  | _ => none

theorem loneId?_eq_some : loneId? n = some id ↔ ∃ text textInfo info marker,
    n = .branch .paragraph [.leaf (.text text) textInfo] info ∧
      BlockMarker.parse? text = some marker ∧ marker.text.isEmpty = true ∧ marker.id = id := by
  constructor
  · intro found
    unfold loneId? at found
    split at found
    · next text textInfo info =>
        split at found
        · next marker parsed =>
            split at found
            · next empty =>
                exact ⟨text, textInfo, info, marker, rfl, parsed, empty, Option.some.inj found⟩
            · cases found
        · cases found
    · cases found
  · rintro ⟨text, textInfo, info, marker, rfl, parsed, empty, rfl⟩
    simp only [loneId?, parsed, empty, if_true]

theorem eq_of_trailing? {content : List Node} {marker : BlockMarker}
    (h : trailing? content = some marker) :
    ∃ front text info, content = front ++ [.leaf (.text text) info] ∧
      BlockMarker.parse? text = some marker := by
  unfold trailing? at h
  split at h
  · next text info last =>
      exact ⟨content.dropLast, text, info, (List.dropLast_append_getLast? _ last).symm, h⟩
  · cases h

theorem eq_text_of_mark {text : String} (h : mark n = .leaf (.text text) info) :
    n = .leaf (.text text) info := by
  cases n with
  | leaf l _ => exact h
  | branch c cs _ =>
      have kind : c.kind = .text := by
        rw [← show (mark (.branch c cs _)).kind = c.kind from kind_mark _, h]
        rfl
      cases c <;> cases kind
  | table header rows al _ => cases header <;> cases h

theorem marker_closed (h : Unmarked (.branch c cs info)) (ns : List Node) :
    (closed c ns info).info.get? markerKey = none := by
  have unmarked : Unmarked (.branch c (giveFirst c ns) info) := h.congr rfl
  unfold closed
  split
  · exact h.marker
  · rw [marker_named unmarked.styled, unmarked.marker]

theorem mark_of_loneId? (h : loneId? n = some id) :
    ∃ text textInfo info, n = .branch .paragraph [.leaf (.text text) textInfo] info ∧
      mark n = .branch .paragraph [.leaf (.text text) textInfo] (info.set markerKey (.str id)) := by
  obtain ⟨text, textInfo, info, marker, rfl, parsed, empty, rfl⟩ := loneId?_eq_some.mp h
  refine ⟨text, textInfo, info, rfl, ?_⟩
  have found : trailing? [.leaf (.text text) textInfo] = some marker := parsed
  have lone : isLone marker [.leaf (.text text) textInfo] = true := by
    rw [isLone, empty]
    rfl
  simp only [mark, markAll, markBranch, readParagraph, found, lone, if_true]

theorem loneId?_of_marker (h : Unmarked n) (marker : marker? (mark n) = some id) :
    loneId? n = some id := by
  have marked (none : (mark n).info.get? markerKey = none) : False := by
    rw [marker?_eq_none none] at marker
    cases marker
  cases n with
  | leaf l info => exact (marked h.marker).elim
  | table header rows al info => cases header <;> exact (marked h.marker).elim
  | branch c cs info =>
      by_cases paragraph : c = .paragraph
      · subst paragraph
        rw [mark, markBranch] at marked marker
        unfold readParagraph at marked marker
        cases found : trailing? (markAll cs) with
        | none =>
            rw [found] at marked
            exact (marked h.marker).elim
        | some trailing =>
            rw [found] at marked marker
            dsimp only at marked marker
            split at marked
            · next lone =>
                -- the single text that is left was there before its paragraph was marked
                rw [if_pos lone] at marker
                obtain ⟨empty, single⟩ : trailing.text.isEmpty = true ∧ (markAll cs).length = 1 := by
                  simpa [isLone] using lone
                obtain ⟨front, text, textInfo, content, parsed⟩ := eq_of_trailing? found
                have alone : front = [] := by
                  rw [content] at single
                  simpa using single
                rw [alone, List.nil_append, markAll_eq_map] at content
                obtain ⟨k, rfl, text_mark⟩ := List.map_eq_singleton_iff.mp content
                have given : trailing.id = id := by
                  have held : (Node.branch .paragraph (markAll [k])
                      (info.set markerKey (.str trailing.id))).info.get? markerKey =
                        some (.str trailing.id) :=
                    Record.get?_set_self info "block_reference" (.str trailing.id)
                  exact Option.some.inj ((marker?_eq_some held).symm.trans marker)
                exact loneId?_eq_some.mpr
                  ⟨text, textInfo, info, trailing, by rw [eq_text_of_mark text_mark], parsed, empty, given⟩
            · have unmarked : Unmarked (unmarked trailing (markAll cs) info) := h.congr rfl
              exact (marked (by rw [marker_named unmarked.styled, unmarked.marker])).elim
      · rw [mark, markBranch_of_ne paragraph] at marked
        split at marked
        · exact (marked (marker_closed h _)).elim
        · exact (marked h.marker).elim

/-- The stage leaves an id to hand on exactly where a paragraph is nothing but a marker. -/
theorem marker?_mark (h : Unmarked n) : marker? (mark n) = loneId? n := by
  refine Option.ext fun id => ⟨loneId?_of_marker h, fun lone => ?_⟩
  obtain ⟨text, textInfo, info, -, marked⟩ := mark_of_loneId? lone
  rw [marked]
  exact marker?_eq_some (Record.get?_set_self info "block_reference" (.str id))

theorem mark_of_marker (h : Unmarked n) (marker : marker? (mark n) = some id) :
    ∃ text textInfo info, mark n = .branch .paragraph [.leaf (.text text) textInfo] info := by
  obtain ⟨text, textInfo, info, -, marked⟩ := mark_of_loneId? (loneId?_of_marker h marker)
  exact ⟨text, textInfo, _, marked⟩

section Place

theorem mem_handOnAfter (unmarked : marker? n = none) (before after : List Node) :
    (fateBefore after).apply (plain n) ∈ handOnAfter (before ++ n :: after) := by
  induction before with
  | nil =>
      simp only [List.nil_append, handOnAfter, unmarked]
      exact List.mem_cons_self
  | cons k before ih =>
      rw [List.cons_append, handOnAfter]
      split
      · exact List.mem_cons_of_mem _ ih
      · exact ih

/-- A block keeps its place, unless it is a marker with a block before it. -/
theorem mem_handOn (stays : before = [] ∨ marker? n = none) (after : List Node) :
    (fateBefore after).apply (plain n) ∈ handOn (before ++ n :: after) := by
  cases before with
  | nil => exact List.mem_cons_self
  | cons k before =>
      obtain unmarked : marker? n = none := stays.resolve_left (List.cons_ne_nil _ _)
      exact List.mem_cons_of_mem _ (mem_handOnAfter unmarked before after)

theorem mem_giveFirst {ns : List Node} (member : n ∈ ns) (other : n.kind ≠ .paragraph) :
    n ∈ giveFirst c ns := by
  cases ns with
  | nil => cases member
  | cons k ns =>
      rcases List.mem_cons.mp member with rfl | later
      · have kept : gives c n = false := by simp [gives, other]
        rw [giveFirst, kept]
        exact List.mem_cons_self
      · exact List.mem_cons_of_mem _ later

theorem fateBefore_single (marker : marker? p = some id) (single : ∀ k ∈ after.head?, marker? k = none) :
    fateBefore (p :: after) = .rename id := by
  have last : lastMarker? after = none := by
    cases after with
    | nil => rfl
    | cons k after => rw [lastMarker?, single k rfl]
  simp only [fateBefore, lastMarker?, marker, last, Option.getD_none]

/-- A block that a single marker follows stands among the marked ones with the id of the marker. -/
theorem named_mem_handOn (blocks : ∀ n ∈ before ++ b :: p :: after, Unmarked n)
    (alone : loneId? p = some id) (single : ∀ k ∈ after.head?, loneId? k = none)
    (stays : before = [] ∨ loneId? b = none) :
    named id (plain (mark b)) ∈ handOn (markAll (before ++ b :: p :: after)) := by
  have ofB : marker? (mark b) = loneId? b := marker?_mark (blocks b (by simp))
  have ofP : marker? (mark p) = loneId? p := marker?_mark (blocks p (by simp))
  have rest : ∀ k ∈ (after.map mark).head?, marker? k = none := by
    intro k hk
    rw [List.head?_map] at hk
    obtain ⟨a, ha, rfl⟩ := Option.map_eq_some_iff.mp hk
    have listed : a ∈ after := List.mem_of_head? ha
    rw [marker?_mark (blocks a (by simp [listed]))]
    exact single a ha
  have place : before.map mark = [] ∨ marker? (mark b) = none := by
    rw [ofB]
    exact stays.imp_left fun none => by rw [none]; rfl
  have fate := fateBefore_single (ofP.trans alone) rest
  have member := mem_handOn place (mark p :: after.map mark)
  rw [fate] at member
  rw [markAll_eq_map, List.map_append, List.map_cons, List.map_cons]
  exact member

theorem exists_withInfo_named (id : String) (n : Node) : ∃ info, named id n = n.withInfo info := by
  unfold named withAttrs
  cases addAttrs [(idKey, .str id)] n.info with
  | error e => exact ⟨n.info, (withInfo_info n).symm⟩
  | ok info => exact ⟨info, rfl⟩

theorem exists_withInfo_apply (f : Fate) (n : Node) : ∃ info, f.apply (plain n) = n.withInfo info := by
  have ofNameless (m : Node) : ∃ info, nameless m = m.withInfo info := by
    unfold nameless
    split
    · exact ⟨m.info, (withInfo_info m).symm⟩
    · split
      · exact ⟨_, rfl⟩
      · exact ⟨m.info, (withInfo_info m).symm⟩
  have given : ∃ info, f.apply (plain n) = (plain n).withInfo info := by
    cases f with
    | keep => exact ⟨(plain n).info, (withInfo_info _).symm⟩
    | rename id => exact exists_withInfo_named id _
    | give => exact ofNameless _
  obtain ⟨info, given⟩ := given
  exact ⟨info, by rw [given, plain, withInfo_withInfo]⟩

/-- A block that is no paragraph stands among the marked blocks of its container. -/
theorem mem_children_mark (blocks : holdsBlocks c = true) (member : n ∈ cs) (unmarked : Unmarked n)
    (other : n.kind ≠ .paragraph) : ∃ children info' own,
      mark (.branch c cs info) = .branch c children info' ∧ (mark n).withInfo own ∈ children := by
  have notParagraph : c ≠ .paragraph := by
    rintro rfl
    cases blocks
  have branch : mark (.branch c cs info) = _ := markBranch_of_ne notParagraph (markAll cs) info
  have marked : mark n ∈ markAll cs := by
    rw [markAll_eq_map]
    exact List.mem_map_of_mem member
  split at branch
  · -- a block that holds no id to hand on keeps its place, whatever the markers after it give it
    obtain ⟨before, after, split⟩ := List.append_of_mem marked
    have markless : marker? (mark n) = none := by
      rw [marker?_mark unmarked]
      refine Option.eq_none_iff_forall_ne_some.mpr fun id lone => ?_
      obtain ⟨text, textInfo, info, rfl, -⟩ := mark_of_loneId? lone
      exact other rfl
    obtain ⟨own, placed⟩ := exists_withInfo_apply (fateBefore after) (mark n)
    have among : (mark n).withInfo own ∈ giveFirst c (handOn (markAll cs)) := by
      refine mem_giveFirst ?_ (by rw [kind_withInfo, kind_mark]; exact other)
      rw [split, ← placed]
      exact mem_handOn (.inr markless) after
    unfold closed at branch
    split at branch
    · exact ⟨_, _, own, branch, among⟩
    · obtain ⟨info', given⟩ := exists_withInfo_named _ _
      exact ⟨_, info', own, branch.trans given, among⟩
  · exact ⟨_, _, _, branch, by rw [withInfo_info]; exact marked⟩

theorem mark_quotes (quotes : c = .document ∨ c = .blockQuote) (cs : List Node) (info : Record) :
    mark (.branch c cs info) = .branch c (handOn (markAll cs)) info := by
  have other : c ≠ .paragraph := by rcases quotes with rfl | rfl <;> nofun
  have hands : handsOn c = true := by rcases quotes with rfl | rfl <;> rfl
  have noItem : c.kind ≠ .listItem := by rcases quotes with rfl | rfl <;> nofun
  rw [mark, markBranch_of_ne other, if_pos hands, (closed_of_kind noItem _ _).1]

/-- A document or quote in the tree stands in the marked tree with its blocks marked. -/
theorem holds_mark (h : Holds n (.branch c cs info)) (below : ∀ k ∈ n.children, All Unmarked k)
    (quotes : c = .document ∨ c = .blockQuote) :
    ∃ info', Holds (mark n) (.branch c (handOn (markAll cs)) info') := by
  have blocks : holdsBlocks c = true := by rcases quotes with rfl | rfl <;> rfl
  generalize target : Node.branch c cs info = m at h
  induction h with
  | self n =>
      subst target
      exact ⟨info, mark_quotes quotes cs info ▸ .self _⟩
  | @child d ds outer k m within member inner ih =>
      subst target
      have unmarked : All Unmarked k := below k member
      obtain ⟨info', held⟩ := ih (fun j hj => unmarked.child hj) rfl
      obtain ⟨children, outer', own, branch, among⟩ :=
        mem_children_mark within member unmarked.self (inner.source blocks)
      obtain ⟨info'', held⟩ := held.withInfo own
      exact ⟨info'', branch ▸ .child within among held⟩

end Place

end Stage.Blocks

end NoteMarkup
