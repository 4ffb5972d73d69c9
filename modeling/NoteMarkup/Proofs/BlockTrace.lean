import NoteMarkup.Proofs.BlockNaming

/-! The names in a tree agree with the tree that the stage makes of it: every block that is named
stands in the tree as its fate says, and every id in the tree is a name that lasts. -/

namespace NoteMarkup.Stage.Blocks

open Node

variable {n m : Node} {id : String}

/-- A node of the tree below its root. -/
def Below (m n : Node) : Prop := ∃ c ∈ n.children, m ∈ c.nodes

theorem mem_nodes_iff : m ∈ n.nodes ↔ m = n ∨ Below m n := mem_nodes

theorem below_congr {n n' : Node} (h : n'.children = n.children) : Below m n' ↔ Below m n := by
  rw [Below, h]
  rfl

@[simp] theorem children_apply (f : Fate) (n : Node) : (f.apply n).children = n.children := by
  cases f with
  | keep => rfl
  | rename id => exact children_named id n
  | give => exact children_nameless n

/-- A name of a block is the id that the block has been given. -/
def Naming.Fits (x : Naming) : Prop := ∃ m, Styled m ∧ x.block = named x.id m

namespace Naming.Fits

variable {x : Naming}

theorem styled (h : x.Fits) : Styled x.block := by
  obtain ⟨m, styled, same⟩ := h
  rw [same]
  exact styled.named x.id

theorem idOf? (h : x.Fits) : idOf? x.block = some (.str x.id) := by
  obtain ⟨m, styled, same⟩ := h
  rw [same, idOf?_named styled]

end Naming.Fits

/-- A name among these stays with the block that is recorded for it, and the block is `m`. -/
def Finds (xs : List Naming) (m : Node) (v : Value) : Prop :=
  ∃ x ∈ xs, x.Lasts ∧ x.block = m ∧ v = .str x.id

namespace Finds

variable {xs ys : List Naming} {v : Value}

theorem cons (h : Finds xs m v) (x : Naming) : Finds (x :: xs) m v := by
  obtain ⟨y, hy, found⟩ := h
  exact ⟨y, List.mem_cons_of_mem _ hy, found⟩

theorem left (h : Finds xs m v) : Finds (xs ++ ys) m v := by
  obtain ⟨x, hx, found⟩ := h
  exact ⟨x, List.mem_append_left _ hx, found⟩

theorem right (h : Finds ys m v) : Finds (xs ++ ys) m v := by
  obtain ⟨x, hx, found⟩ := h
  exact ⟨x, List.mem_append_right _ hx, found⟩

theorem append (h : Finds xs m v ∨ Finds ys m v) : Finds (xs ++ ys) m v := h.elim left right

end Finds

/-- If the stage gives the root an id, the root holds no marker, and the id is among the names. -/
theorem root_found {v : Value} (h : Unnamed n) (has : idOf? (mark n) = some v) :
    (mark n).info.get? markerKey = none ∧
      ∀ f, ∃ x ∈ namings f n, x.block = mark n ∧ x.fate = f ∧ v = .str x.id := by
  cases turned n with
  | same info =>
      rw [idOf?_congr info, h.id] at has
      cases has
  | lone id info =>
      rw [idOf?_marked h.styled info, h.id] at has
      cases has
  | named m id moved info root among =>
      have unnamed : Unnamed m := h.congr info
      refine ⟨by rw [root, marker_named unnamed.styled, unnamed.marker], fun f => ?_⟩
      rw [root, idOf?_named unnamed.styled] at has
      exact ⟨_, among f, rfl, rfl, (Option.some.inj has).symm⟩

/-- A block that is dropped as a marker has no names in it. -/
theorem namings_of_marker (h : Unnamed n) (marker : marker? (mark n) = some id) (f : Fate) :
    namings f n = [] := by
  have none (unmarked : (mark n).info.get? markerKey = none) : namings f n = [] := by
    rw [marker?_eq_none unmarked] at marker
    cases marker
  cases turned n with
  | same info => exact none (by rw [info, h.marker])
  | lone _ _ empty => exact empty f
  | named m id moved info root =>
      have unnamed : Unnamed m := h.congr info
      exact none (by rw [root, marker_named unnamed.styled, unnamed.marker])

/-- A block of a container as it is in the end. -/
def final (c : Container) (first : Bool) (m : Node) (later : List Node) : Node :=
  if first && gives c m then nameless ((fateBefore later).apply m) else (fateBefore later).apply m

@[simp] theorem children_final (c : Container) (first : Bool) (m : Node) (later : List Node) :
    (final c first m later).children = m.children := by
  unfold final
  split
  · rw [children_nameless, children_apply]
  · exact children_apply _ _

theorem gives_congr {c : Container} (h : m.kind = n.kind) : gives c m = gives c n := by
  unfold gives
  rw [h]

/-- The blocks of a container as they are in the end. -/
theorem giveFirst_handOn (c : Container) (n : Node) (ns : List Node) :
    giveFirst c (handOn (n :: ns)) = final c true (plain n) ns :: handOnAfter ns := by
  have kind : ((fateBefore ns).apply (plain n)).kind = (plain n).kind := by
    unfold fateBefore
    cases lastMarker? ns with
    | none => rfl
    | some id => exact kind_named id _
  rw [handOn, giveFirst, gives_congr kind]
  rfl

theorem final_marked {c : Container} {first : Bool} {ns : List Node} (h : marker? n = some id)
    (styled : Styled m) : final c first m (n :: ns) = final c first (named id m) ns := by
  unfold final
  rw [fateBefore_marked h styled, gives_congr (kind_named id m)]

/-- A fate leads to the block as it is in the end, if the block has an id. -/
theorem apply_fateIn {c : Container} {first : Bool} {ns : List Node} {v : Value}
    (hands : handsOn c = true) (styled : Styled m) (has : idOf? m = some v) :
    (fateIn c first m ns).apply m = final c first m ns := by
  unfold fateIn final
  rw [hands]
  cases first && gives c m with
  | false => rfl
  | true =>
      change nameless m = nameless ((fateBefore ns).apply m)
      unfold fateBefore
      cases lastMarker? ns with
      | none => rfl
      | some id =>
          obtain ⟨as, attrs⟩ := styled
          exact (nameless_of_some attrs has).trans (nameless_named attrs).symm

section Handed

variable {c : Container} {ns : List Node}

theorem handed_fits (ready : ∀ n ∈ ns, Ready n) :
    ∀ first m, Styled m → ∀ x ∈ handed c first m ns, x.Fits := by
  induction ns with
  | nil => nofun
  | cons n ns ih =>
      intro first m styled x hx
      obtain ⟨ofHead, ofRest⟩ := List.forall_mem_cons.mp ready
      rw [handed] at hx
      split at hx
      · exact ih ofRest false (plain n) ofHead.styled.plain x hx
      · next id _ =>
          rcases List.mem_cons.mp hx with rfl | later
          · exact ⟨m, styled, rfl⟩
          · exact ih ofRest first (named id m) (styled.named id) x later

/-- A block that a marker names stands among the blocks of the container in the end. -/
theorem handed_held (hands : handsOn c = true) (ready : ∀ n ∈ ns, Ready n) :
    ∀ first m, Styled m → ∀ x ∈ handed c first m ns,
      x.held = final c first m ns ∨ x.held ∈ handOnAfter ns := by
  induction ns with
  | nil => nofun
  | cons n ns ih =>
      intro first m styled x hx
      obtain ⟨ofHead, ofRest⟩ := List.forall_mem_cons.mp ready
      rw [handed] at hx
      cases marker : marker? n with
      | none =>
          simp only [marker] at hx
          simp only [handOnAfter, marker]
          right
          rcases ih ofRest false (plain n) ofHead.styled.plain x hx with last | later
          · rw [last]
            exact List.mem_cons_self
          · exact List.mem_cons_of_mem _ later
      | some id =>
          simp only [marker] at hx
          simp only [handOnAfter, marker]
          rw [final_marked marker styled]
          rcases List.mem_cons.mp hx with rfl | later
          · left
            have fate : fateIn c first m ns = fateIn c first (named id m) ns := by
              unfold fateIn
              rw [gives_congr (kind_named id m)]
            change (fateIn c first m ns).apply (named id m) = _
            rw [fate]
            exact apply_fateIn hands (styled.named id) (idOf?_named styled id)
          · exact ih ofRest first (named id m) (styled.named id) x later

/-- The last marker after a block gives it a name that lasts. -/
theorem handed_found (hands : handsOn c = true) :
    ∀ (ns : List Node) (m : Node) (last : String), Styled m → lastMarker? ns = some last →
      ∀ first, (first && gives c m) = false →
        Finds (handed c first m ns) (final c first m ns) (.str last) := by
  intro ns
  induction ns with
  | nil => nofun
  | cons n ns ih =>
      intro m last styled given first keeps
      rw [lastMarker?] at given
      cases marker : marker? n with
      | none =>
          rw [marker] at given
          cases given
      | some id =>
          rw [marker] at given
          have keeps' : (first && gives c (named id m)) = false := by
            rw [gives_congr (kind_named id m)]
            exact keeps
          simp only [handed, marker]
          rw [final_marked marker styled]
          cases later : lastMarker? ns with
          | none =>
              rw [later] at given
              cases given
              refine ⟨_, List.mem_cons_self, ?_, ?_, rfl⟩
              · simp [Naming.Lasts, fateIn, hands, keeps, fateBefore, later, Fate.idAfter]
              · simp [final, keeps', fateBefore, later, Fate.apply]
          | some last' =>
              rw [later] at given
              cases given
              exact (ih (named id m) last' (styled.named id) later first keeps').cons _

end Handed

/-- The names in a tree and the tree that the stage makes of it agree. -/
structure Traced (n : Node) : Prop where
  fits : ∀ f, ∀ x ∈ namings f n, x.Fits
  held : ∀ f, ∀ x ∈ namings f n, Below x.held (mark n) ∨ x.block = mark n ∧ x.fate = f
  found : ∀ f m v, Below m (mark n) → idOf? m = some v → Finds (namings f n) m v

theorem Traced.held_mem (h : Traced n) : ∀ x ∈ namings .keep n, x.held ∈ (mark n).nodes := by
  intro x hx
  rcases h.held .keep x hx with below | ⟨root, kept⟩
  · exact mem_nodes_iff.mpr (.inr below)
  · rw [Naming.held, kept, root]
    exact self_mem_nodes _

theorem Traced.found_of_mem (h : Traced n) (unnamed : Unnamed n) {v : Value} (hm : m ∈ (mark n).nodes)
    (has : idOf? m = some v) : Finds (namings .keep n) m v := by
  rcases mem_nodes_iff.mp hm with rfl | below
  · obtain ⟨x, hx, block, kept, id⟩ := (root_found unnamed has).2 .keep
    refine ⟨x, hx, ?_, block, id⟩
    rw [Naming.Lasts, kept]
    rfl
  · exact h.found .keep m v below has

section Child

variable {c : Container} {first : Bool} {later : List Node}

theorem child_held (hands : handsOn c = true) (h : Unnamed n) (traced : Traced n) :
    ∀ x ∈ namings (fateIn c first (mark n) later) n,
      x.held ∈ (final c first (plain (mark n)) later).nodes := by
  intro x hx
  have fits := traced.fits _ x hx
  rw [mem_nodes_iff]
  rcases traced.held _ x hx with below | ⟨root, fate⟩
  · right
    rwa [below_congr (children_final _ _ _ _), below_congr (children_plain _)]
  · left
    have has : idOf? (mark n) = some (.str x.id) := root ▸ fits.idOf?
    have unmarked : plain (mark n) = mark n := plain_eq_self (root_found h has).1
    rw [unmarked, Naming.held, root, fate]
    exact apply_fateIn hands (ready_mark h.unmarked).styled has

theorem child_found (hands : handsOn c = true) (h : Unnamed n) (traced : Traced n) {v : Value}
    (member : m ∈ (final c first (plain (mark n)) later).nodes) (has : idOf? m = some v) :
    Finds (namings (fateIn c first (mark n) later) n) m v ∨
      Finds (handed c first (plain (mark n)) later) m v := by
  have styled : Styled (plain (mark n)) := (ready_mark h.unmarked).styled.plain
  rcases mem_nodes_iff.mp member with rfl | below
  · cases keeps : first && gives c (plain (mark n)) with
    | true =>
        have gone : final c first (plain (mark n)) later =
            nameless ((fateBefore later).apply (plain (mark n))) := by rw [final, if_pos keeps]
        have ready := (ready_mark h.unmarked).plain.apply_fateBefore later
        rw [gone, idOf?_nameless ready.styled] at has
        cases has
    | false =>
        have stays : final c first (plain (mark n)) later =
            (fateBefore later).apply (plain (mark n)) := by
          rw [final, keeps]
          rfl
        cases marker : lastMarker? later with
        | none =>
            have fate : fateIn c first (mark n) later = .keep := by
              rw [gives_congr (kind_plain _)] at keeps
              simp [fateIn, hands, keeps, fateBefore, marker]
            have root : final c first (plain (mark n)) later = plain (mark n) := by
              rw [stays, fateBefore, marker]
              rfl
            rw [root, idOf?_plain (ready_mark h.unmarked).styled] at has
            obtain ⟨unmarked, named⟩ := root_found h has
            obtain ⟨x, hx, block, lasts, id⟩ := named .keep
            refine .inl ⟨x, fate ▸ hx, ?_, ?_, id⟩
            · rw [Naming.Lasts, lasts]
              rfl
            · rw [root, block, plain_eq_self unmarked]
        | some last =>
            have named := idOf?_named styled last
            rw [stays, fateBefore, marker] at has
            obtain rfl : v = .str last := (Option.some.inj (named.symm.trans has)).symm
            exact .inr (handed_found hands later _ last styled marker first keeps)
  · rw [below_congr (children_final _ _ _ _), below_congr (children_plain _)] at below
    exact .inl (traced.found _ m v below has)

end Child

section Children

variable {c : Container} {cs : List Node}

/-- The blocks after the first one of a container. -/
theorem after_held (hands : handsOn c = true) (each : ∀ n ∈ cs, Unnamed n ∧ Traced n) :
    ∀ x ∈ namingsAmong (fateIn c) false cs, ∃ k ∈ handOnAfter (markAll cs), x.held ∈ k.nodes := by
  induction cs with
  | nil => nofun
  | cons n ns ih =>
      intro x hx
      obtain ⟨⟨unnamed, traced⟩, ofRest⟩ := List.forall_mem_cons.mp each
      rw [markAll, handOnAfter]
      rw [namingsAmong] at hx
      rcases List.mem_append.mp hx with ofHead | later
      · cases marker : marker? (mark n) with
        | none =>
            exact ⟨_, List.mem_cons_self, child_held hands unnamed traced x ofHead⟩
        | some id =>
            rw [namings_of_marker unnamed marker] at ofHead
            cases ofHead
      · obtain ⟨k, hk, held⟩ := ih ofRest x later
        cases marker? (mark n) with
        | none => exact ⟨k, List.mem_cons_of_mem _ hk, held⟩
        | some id => exact ⟨k, hk, held⟩

theorem after_found (hands : handsOn c = true) (each : ∀ n ∈ cs, Unnamed n ∧ Traced n) {v : Value} :
    ∀ first l k, Styled l → k ∈ handOnAfter (markAll cs) → m ∈ k.nodes → idOf? m = some v →
      Finds (namingsAmong (fateIn c) false cs) m v ∨ Finds (handed c first l (markAll cs)) m v := by
  induction cs with
  | nil => nofun
  | cons n ns ih =>
      intro first l k styled hk hm has
      obtain ⟨⟨unnamed, traced⟩, ofRest⟩ := List.forall_mem_cons.mp each
      rw [markAll, handOnAfter] at hk
      rw [markAll, handed, namingsAmong]
      cases marker : marker? (mark n) with
      | none =>
          simp only [marker] at hk
          rcases List.mem_cons.mp hk with rfl | later
          · have member : m ∈ (final c false (plain (mark n)) (markAll ns)).nodes := hm
            exact (child_found hands unnamed traced member has).imp_left Finds.left
          · exact (ih ofRest false _ k (ready_mark unnamed.unmarked).styled.plain later hm has).imp_left
              Finds.right
      | some id =>
          simp only [marker] at hk
          exact (ih ofRest first _ k (styled.named id) hk hm has).imp Finds.right
            fun found => found.cons _

/-- The blocks of a container that hands on ids among them. -/
theorem settled_held (hands : handsOn c = true) (each : ∀ n ∈ cs, Unnamed n ∧ Traced n) :
    ∀ x ∈ namingsAmong (fateIn c) true cs ++ handedOn c (markAll cs),
      ∃ k ∈ giveFirst c (handOn (markAll cs)), x.held ∈ k.nodes := by
  cases cs with
  | nil => nofun
  | cons n ns =>
      intro x hx
      obtain ⟨⟨unnamed, traced⟩, ofRest⟩ := List.forall_mem_cons.mp each
      have ready := ready_markAll fun n hn => (ofRest n hn).1.unmarked
      rw [markAll, giveFirst_handOn]
      rw [namingsAmong, markAll, handedOn] at hx
      rcases List.mem_append.mp hx with among | handed
      · rcases List.mem_append.mp among with ofHead | later
        · exact ⟨_, List.mem_cons_self, child_held hands unnamed traced x ofHead⟩
        · obtain ⟨k, hk, held⟩ := after_held hands ofRest x later
          exact ⟨k, List.mem_cons_of_mem _ hk, held⟩
      · refine ⟨x.held, ?_, self_mem_nodes _⟩
        rcases handed_held hands ready true _ (ready_mark unnamed.unmarked).styled.plain x handed with last | later
        · rw [last]
          exact List.mem_cons_self
        · exact List.mem_cons_of_mem _ later

theorem settled_found (hands : handsOn c = true) (each : ∀ n ∈ cs, Unnamed n ∧ Traced n) {v : Value}
    {k : Node} (hk : k ∈ giveFirst c (handOn (markAll cs))) (hm : m ∈ k.nodes) (has : idOf? m = some v) :
    Finds (namingsAmong (fateIn c) true cs ++ handedOn c (markAll cs)) m v := by
  cases cs with
  | nil => cases hk
  | cons n ns =>
      obtain ⟨⟨unnamed, traced⟩, ofRest⟩ := List.forall_mem_cons.mp each
      rw [markAll, giveFirst_handOn] at hk
      rw [namingsAmong, markAll, handedOn]
      rcases List.mem_cons.mp hk with rfl | later
      · exact .append ((child_found hands unnamed traced hm has).imp_left Finds.left)
      · exact .append ((after_found hands ofRest true _ k (ready_mark unnamed.unmarked).styled.plain later hm
          has).imp_left Finds.right)

variable {fate : Bool → Node → List Node → Fate}

/-- The blocks of a container that leaves their ids alone. A text is never named. -/
theorem kept_held (each : ∀ n ∈ cs, Traced n) :
    ∀ first, (∀ first n later, fate first n later = .keep) →
      ∀ x ∈ namingsAmong fate first cs, ∃ k ∈ markAll cs, k.kind ≠ .text ∧ x.held ∈ k.nodes := by
  intro first keeps
  induction cs generalizing first with
  | nil => nofun
  | cons n ns ih =>
      intro x hx
      obtain ⟨traced, ofRest⟩ := List.forall_mem_cons.mp each
      rw [namingsAmong, keeps] at hx
      rw [markAll]
      rcases List.mem_append.mp hx with ofHead | later
      · refine ⟨_, List.mem_cons_self, ?_, ?_⟩
        · intro text
          rw [kind_mark] at text
          rw [namings_of_text text] at ofHead
          cases ofHead
        · exact traced.held_mem x ofHead
      · obtain ⟨k, hk, held⟩ := ih ofRest false x later
        exact ⟨k, List.mem_cons_of_mem _ hk, held⟩

theorem kept_found (each : ∀ n ∈ cs, Unnamed n ∧ Traced n) {v : Value} {k : Node} :
    ∀ first, (∀ first n later, fate first n later = .keep) → k ∈ markAll cs → m ∈ k.nodes →
      idOf? m = some v → Finds (namingsAmong fate first cs) m v := by
  intro first keeps
  induction cs generalizing first with
  | nil => nofun
  | cons n ns ih =>
      intro hk hm has
      obtain ⟨⟨unnamed, traced⟩, ofRest⟩ := List.forall_mem_cons.mp each
      rw [namingsAmong, keeps]
      rcases List.mem_cons.mp hk with rfl | later
      · exact (traced.found_of_mem unnamed hm has).left
      · exact (ih ofRest false later hm has).right

end Children

section Paragraph

variable {content : List Node} {info : Record}

theorem adoption_fits {c : Container} {ns : List Node} (styled : Styled (.branch c ns info)) (f : Fate) :
    ∀ x ∈ adoption f c ns info, x.Fits ∧ x.block = closed c ns info ∧ x.fate = f := by
  intro x hx
  unfold adoption at hx
  unfold closed
  cases given : givenId? c ns with
  | none =>
      rw [given] at hx
      cases hx
  | some id =>
      rw [given] at hx
      cases List.mem_singleton.mp hx
      have left : Styled (.branch c (giveFirst c ns) info) := styled.congr rfl
      exact ⟨⟨_, left, rfl⟩, rfl, rfl⟩

theorem paragraphNamings_fits (styled : Styled (.branch .paragraph content info)) (f : Fate) :
    ∀ x ∈ paragraphNamings f content info,
      x.Fits ∧ x.block = readParagraph content info ∧ x.fate = f := by
  intro x hx
  unfold paragraphNamings at hx
  unfold readParagraph
  cases found : trailing? content with
  | none =>
      rw [found] at hx
      cases hx
  | some marker =>
      rw [found] at hx
      cases lone : isLone marker content with
      | true =>
          simp only [lone, if_true] at hx
          cases hx
      | false =>
          simp only [lone, Bool.false_eq_true, if_false] at hx
          cases List.mem_singleton.mp hx
          have cut : Styled (unmarked marker content info) := styled.congr rfl
          refine ⟨⟨_, cut, rfl⟩, ?_, rfl⟩
          simp only [lone, Bool.false_eq_true, if_false]

/-- Reading its marker changes nothing in a paragraph but the text at its end. -/
theorem mem_readParagraph {k : Node} :
    (k ∈ (readParagraph content info).children → k ∈ content ∨ ∃ t, k = Node.ofText t) ∧
      (k ∈ content → k.kind ≠ .text → k ∈ (readParagraph content info).children) := by
  unfold readParagraph
  cases found : trailing? content with
  | none => exact ⟨.inl, fun hk _ => hk⟩
  | some marker =>
      cases lone : isLone marker content with
      | true =>
          simp only [lone, if_true]
          exact ⟨.inl, fun hk _ => hk⟩
      | false =>
          simp only [lone, Bool.false_eq_true, if_false, children_named]
          constructor
          · intro hk
            rcases List.mem_append.mp hk with before | last
            · exact .inl (List.dropLast_subset _ before)
            · split at last
              · cases last
              · exact .inr ⟨_, List.mem_singleton.mp last⟩
          · intro hk other
            refine List.mem_append_left _ ?_
            unfold trailing? at found
            split at found
            · next text textInfo last =>
                rw [← List.dropLast_append_getLast? _ last] at hk
                rcases List.mem_append.mp hk with before | atEnd
                · exact before
                · rw [List.mem_singleton.mp atEnd] at other
                  exact absurd rfl other
            · cases found

end Paragraph

theorem idOf?_ofText (text : String) : idOf? (Node.ofText text) = none := rfl

theorem not_below_ofText (text : String) : ¬ Below m (Node.ofText text) := by
  rintro ⟨k, hk, -⟩
  cases hk

theorem among_fits {fate : Bool → Node → List Node → Fate} {cs : List Node}
    (each : ∀ n ∈ cs, Traced n) : ∀ first, ∀ x ∈ namingsAmong fate first cs, x.Fits := by
  intro first
  induction cs generalizing first with
  | nil => nofun
  | cons n ns ih =>
      intro x hx
      obtain ⟨traced, ofRest⟩ := List.forall_mem_cons.mp each
      rw [namingsAmong] at hx
      rcases List.mem_append.mp hx with ofHead | later
      · exact traced.fits _ x ofHead
      · exact ih ofRest false x later

theorem handedOn_fits {c : Container} {ns : List Node} (ready : ∀ n ∈ ns, Ready n) :
    ∀ x ∈ handedOn c ns, x.Fits := by
  cases ns with
  | nil => nofun
  | cons n ns =>
      obtain ⟨ofHead, ofRest⟩ := List.forall_mem_cons.mp ready
      exact handed_fits ofRest true _ ofHead.styled.plain

section Branch

variable {c : Container} {cs : List Node} {info : Record}

theorem traced_paragraph (h : Unnamed (.branch .paragraph cs info))
    (each : ∀ n ∈ cs, Unnamed n ∧ Traced n) : Traced (.branch .paragraph cs info) := by
  have traceds : ∀ n ∈ cs, Traced n := fun n hn => (each n hn).2
  have styled : Styled (.branch .paragraph (markAll cs) info) := h.styled.congr rfl
  have own := paragraphNamings_fits styled
  refine ⟨?_, ?_, ?_⟩
  · intro f x hx
    rw [namings] at hx
    rcases List.mem_append.mp hx with among | last
    · exact among_fits traceds true x among
    · exact (own f x last).1
  · intro f x hx
    rw [namings] at hx
    rcases List.mem_append.mp hx with among | last
    · obtain ⟨k, hk, other, held⟩ := kept_held traceds true (fun _ _ _ => rfl) x among
      exact .inl ⟨k, mem_readParagraph.2 hk other, held⟩
    · exact .inr (own f x last).2
  · rintro f m v ⟨k, hk, hm⟩ has
    rw [namings]
    rcases mem_readParagraph.1 hk with old | ⟨t, rfl⟩
    · exact (kept_found each true (fun _ _ _ => rfl) old hm has).left
    · rcases mem_nodes_iff.mp hm with rfl | below
      · rw [idOf?_ofText] at has
        cases has
      · exact (not_below_ofText t below).elim

theorem traced_handing (hands : handsOn c = true) (h : Unnamed (.branch c cs info))
    (each : ∀ n ∈ cs, Unnamed n ∧ Traced n) : Traced (.branch c cs info) := by
  have other : c ≠ .paragraph := by
    rintro rfl
    cases hands
  have ready := ready_markAll fun n hn => (each n hn).1.unmarked
  have root : mark (.branch c cs info) = closed c (handOn (markAll cs)) info := by
    rw [mark, markBranch_of_ne other, if_pos hands]
  have listed (f : Fate) : namings f (.branch c cs info) =
      (namingsAmong (fateIn c) true cs ++ handedOn c (markAll cs)) ++
        adoption f c (handOn (markAll cs)) info := by
    rw [namings, ownNamings_of_ne other, if_pos hands, List.append_assoc]
  have styled : Styled (.branch c (handOn (markAll cs)) info) := h.styled.congr rfl
  have own := adoption_fits styled
  refine ⟨?_, ?_, ?_⟩
  · intro f x hx
    rw [listed] at hx
    rcases List.mem_append.mp hx with below | last
    · rcases List.mem_append.mp below with among | handed
      · exact among_fits (fun n hn => (each n hn).2) true x among
      · exact handedOn_fits ready x handed
    · exact (own f x last).1
  · intro f x hx
    rw [listed] at hx
    rw [root]
    rcases List.mem_append.mp hx with below | last
    · obtain ⟨k, hk, held⟩ := settled_held hands each x below
      exact .inl ⟨k, by rwa [children_closed], held⟩
    · exact .inr (own f x last).2
  · rintro f m v ⟨k, hk, hm⟩ has
    rw [root, children_closed] at hk
    rw [listed]
    exact (settled_found hands each hk hm has).left

theorem traced_keeping (hands : handsOn c = false) (other : c ≠ .paragraph)
    (each : ∀ n ∈ cs, Unnamed n ∧ Traced n) : Traced (.branch c cs info) := by
  have traceds : ∀ n ∈ cs, Traced n := fun n hn => (each n hn).2
  have keeps (first : Bool) (n : Node) (later : List Node) : fateIn c first n later = .keep := by
    rw [fateIn, hands]
    rfl
  have root : mark (.branch c cs info) = .branch c (markAll cs) info := by
    rw [mark, markBranch_of_ne other, hands]
    rfl
  have listed (f : Fate) : namings f (.branch c cs info) = namingsAmong (fateIn c) true cs := by
    rw [namings, ownNamings_of_ne other, hands]
    exact List.append_nil _
  refine ⟨fun f => ?_, fun f x hx => ?_, ?_⟩
  · rw [listed]
    exact among_fits traceds true
  · rw [listed] at hx
    rw [root]
    obtain ⟨k, hk, -, held⟩ := kept_held traceds true keeps x hx
    exact .inl ⟨k, hk, held⟩
  · rintro f m v ⟨k, hk, hm⟩ has
    rw [root] at hk
    rw [listed]
    exact kept_found each true keeps hk hm has

end Branch

theorem traced_table {header : Option Node} {rows : List Node} {al : List (Option String)}
    {info : Record} (ofHeader : ∀ n ∈ header, Unnamed n ∧ Traced n)
    (ofRows : ∀ n ∈ rows, Unnamed n ∧ Traced n) : Traced (.table header rows al info) := by
  have traceds : ∀ n ∈ rows, Traced n := fun n hn => (ofRows n hn).2
  cases header with
  | none =>
      refine ⟨fun f => among_fits traceds true, fun f x hx => ?_, ?_⟩
      · obtain ⟨k, hk, -, held⟩ := kept_held traceds true (fun _ _ _ => rfl) x hx
        exact .inl ⟨k, hk, held⟩
      · rintro f m v ⟨k, hk, hm⟩ has
        exact kept_found ofRows true (fun _ _ _ => rfl) hk hm has
  | some header =>
      obtain ⟨unnamed, traced⟩ := ofHeader header rfl
      refine ⟨fun f x hx => ?_, fun f x hx => ?_, ?_⟩
      · rcases List.mem_append.mp hx with among | last
        · exact among_fits traceds true x among
        · exact traced.fits .keep x last
      · rcases List.mem_append.mp hx with among | last
        · obtain ⟨k, hk, -, held⟩ := kept_held traceds true (fun _ _ _ => rfl) x among
          exact .inl ⟨k, List.mem_cons_of_mem _ hk, held⟩
        · exact .inl ⟨mark header, List.mem_cons_self, traced.held_mem x last⟩
      · rintro f m v ⟨k, hk, hm⟩ has
        rcases List.mem_cons.mp hk with rfl | row
        · exact (traced.found_of_mem unnamed hm has).right
        · exact (kept_found ofRows true (fun _ _ _ => rfl) row hm has).left

/-- The names in a tree agree with the tree that the stage makes of it. -/
theorem traced (n : Node) : All Unnamed n → Traced n := by
  induction n using induct with
  | leaf l info =>
      intro _
      refine ⟨fun _ => by nofun, fun _ => by nofun, ?_⟩
      rintro f m v ⟨k, hk, -⟩
      cases hk
  | branch c cs info ih =>
      intro all
      obtain ⟨self, below⟩ := all_branch.mp all
      have each : ∀ n ∈ cs, Unnamed n ∧ Traced n := fun n hn => ⟨(below n hn).self, ih n hn (below n hn)⟩
      by_cases paragraph : c = .paragraph
      · subst paragraph
        exact traced_paragraph self each
      · cases hands : handsOn c with
        | true => exact traced_handing hands self each
        | false => exact traced_keeping hands paragraph each
  | table header rows al info hheader hrows =>
      intro all
      obtain ⟨-, ofHeader, ofRows⟩ := all_table.mp all
      exact traced_table (fun n hn => ⟨(ofHeader n hn).self, hheader n hn (ofHeader n hn)⟩)
        fun n hn => ⟨(ofRows n hn).self, hrows n hn (ofRows n hn)⟩

end NoteMarkup.Stage.Blocks
