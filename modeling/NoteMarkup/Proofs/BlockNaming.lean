import NoteMarkup.Proofs.BlockIds
import NoteMarkup.Proofs.Visits

/-! The stage that turns markers into ids, as a function on trees and a list of the names that it
gives on the way. A block can be named more than once: by its own marker, by the markers after it,
and by the item that takes its id over. Each name is listed with what becomes of it. -/

namespace NoteMarkup.Stage.Blocks

open Node

variable {n m : Node} {id : String}

/-- What becomes of a name that a block has been given. -/
inductive Fate where
  /-- The block keeps it. -/
  | keep
  /-- Markers after the block replace it by this one. -/
  | rename (id : String)
  /-- The block is the first one of an item and leaves it to the item. -/
  | give

/-- The block as it is in the end. -/
def Fate.apply : Fate → Node → Node
  | .keep, n => n
  | .rename id, n => named id n
  | .give, n => nameless n

def Fate.idAfter : Fate → String → Option String
  | .keep, id => some id
  | .rename later, _ => some later
  | .give, _ => none

/-- A name that is given to a block. The block has it already; a name that has moved was forgotten
just before. -/
structure Naming where
  id : String
  block : Node
  fate : Fate
  moved : Bool

namespace Naming

/-- The recorded block as it is in the end. -/
def held (x : Naming) : Node := x.fate.apply x.block

def Lasts (x : Naming) : Prop := x.fate.idAfter x.id = some x.id

def record (c : Context) (x : Naming) : Context :=
  (if x.moved then c.eraseBlock (.str x.id) else c).setBlock (.str x.id) x.block

end Naming

def recordAll (c : Context) (xs : List Naming) : Context := xs.foldl Naming.record c

theorem recordAll_append (c : Context) (xs ys : List Naming) :
    recordAll c (xs ++ ys) = recordAll (recordAll c xs) ys := List.foldl_append

/-- The id that the markers at the front of the blocks give in the end. -/
def lastMarker? : List Node → Option String
  | [] => none
  | n :: ns =>
    match marker? n with
    | none => none
    | some id => some ((lastMarker? ns).getD id)

def fateBefore (later : List Node) : Fate :=
  match lastMarker? later with
  | none => .keep
  | some id => .rename id

/-- The container takes over the id of this block, if it is the first one. -/
def gives (c : Container) (n : Node) : Bool := c.kind == .listItem && n.kind == .paragraph

/-- What becomes of the name of a block in a container. -/
def fateIn (c : Container) (first : Bool) (n : Node) (later : List Node) : Fate :=
  if !handsOn c then .keep else if first && gives c n then .give else fateBefore later

/-- The blocks after the first, with the ids that the markers among them give. -/
def handOnAfter : List Node → List Node
  | [] => []
  | n :: ns =>
    match marker? n with
    | none => (fateBefore ns).apply (plain n) :: handOnAfter ns
    | some _ => handOnAfter ns

/-- The blocks with the ids that the markers among them give. The first one stays in any case. -/
def handOn : List Node → List Node
  | [] => []
  | n :: ns => (fateBefore ns).apply (plain n) :: handOnAfter ns

/-- The names that markers give, the first of them to `block`. -/
def handed (c : Container) (first : Bool) (block : Node) : List Node → List Naming
  | [] => []
  | n :: ns =>
    match marker? n with
    | none => handed c false (plain n) ns
    | some id =>
      ⟨id, named id block, fateIn c first block ns, false⟩ :: handed c first (named id block) ns

def handedOn (c : Container) : List Node → List Naming
  | [] => []
  | n :: ns => handed c true (plain n) ns

/-- The blocks after the first one has given its id to the container. -/
def giveFirst (c : Container) : List Node → List Node
  | [] => []
  | n :: ns => (if gives c n then nameless n else n) :: ns

/-- The id that the container takes over from the first block. -/
def givenId? (c : Container) : List Node → Option String
  | [] => none
  | n :: _ =>
    match gives c n, idOf? n with
    | true, some (.str id) => some id
    | _, _ => none

/-- The container with the id that it takes over. -/
def closed (c : Container) (ns : List Node) (info : Record) : Node :=
  match givenId? c ns with
  | none => .branch c (giveFirst c ns) info
  | some id => named id (.branch c (giveFirst c ns) info)

def adoption (f : Fate) (c : Container) (ns : List Node) (info : Record) : List Naming :=
  match givenId? c ns with
  | none => []
  | some id => [⟨id, named id (.branch c (giveFirst c ns) info), f, true⟩]

def trailing? (content : List Node) : Option BlockMarker :=
  match content.getLast? with
  | some (.leaf (.text text) _) => BlockMarker.parse? text
  | _ => none

def isLone (marker : BlockMarker) (content : List Node) : Bool :=
  marker.text.isEmpty && content.length == 1

def unmarked (marker : BlockMarker) (content : List Node) (info : Record) : Node :=
  .branch .paragraph
    (content.dropLast ++ if marker.text.isEmpty then [] else [Node.ofText marker.text]) info

def readParagraph (content : List Node) (info : Record) : Node :=
  match trailing? content with
  | none => .branch .paragraph content info
  | some marker =>
    if isLone marker content then .branch .paragraph content (info.set markerKey (.str marker.id))
    else named marker.id (unmarked marker content info)

def paragraphNamings (f : Fate) (content : List Node) (info : Record) : List Naming :=
  match trailing? content with
  | none => []
  | some marker =>
    if isLone marker content then []
    else [⟨marker.id, named marker.id (unmarked marker content info), f, false⟩]

/-- A container whose children are done. -/
def markBranch (c : Container) (new : List Node) (info : Record) : Node :=
  match c with
  | .paragraph => readParagraph new info
  | c => if handsOn c then closed c (handOn new) info else .branch c new info

/-- The names that are given when the children of a container are done. -/
def ownNamings (f : Fate) (c : Container) (new : List Node) (info : Record) : List Naming :=
  match c with
  | .paragraph => paragraphNamings f new info
  | c => if handsOn c then handedOn c new ++ adoption f c (handOn new) info else []

mutual

/-- The tree with its markers turned into ids. -/
def mark : Node → Node
  | .leaf l info => .leaf l info
  | .branch c cs info => markBranch c (markAll cs) info
  | .table none rows al info => .table none (markAll rows) al info
  | .table (some header) rows al info => .table (some (mark header)) (markAll rows) al info

def markAll : List Node → List Node
  | [] => []
  | n :: ns => mark n :: markAll ns

end

mutual

/-- The names that are given in a tree, in order. `f` is what becomes of the name of its root. -/
def namings (f : Fate) : Node → List Naming
  | .leaf _ _ => []
  -- markers are handed on only when all children are done, so their names come after all others
  | .branch c cs info => namingsAmong (fateIn c) true cs ++ ownNamings f c (markAll cs) info
  | .table none rows _ _ => namingsAmong (fun _ _ _ => .keep) true rows
  | .table (some header) rows _ _ =>
    namingsAmong (fun _ _ _ => .keep) true rows ++ namings .keep header

def namingsAmong (fate : Bool → Node → List Node → Fate) (first : Bool) : List Node → List Naming
  | [] => []
  | n :: ns => namings (fate first (mark n) (markAll ns)) n ++ namingsAmong fate false ns

end

/-- Without a marker after it a block is left alone. -/
theorem fateBefore_unmarked {ns : List Node} (h : marker? n = none) : fateBefore (n :: ns) = .keep := by
  simp only [fateBefore, lastMarker?, h]

/-- A marker names the block, and later ones name it anew. -/
theorem fateBefore_marked {ns : List Node} (h : marker? n = some id) (styled : Styled m) :
    (fateBefore (n :: ns)).apply m = (fateBefore ns).apply (named id m) := by
  simp only [fateBefore, lastMarker?, h]
  cases lastMarker? ns with
  | none => rfl
  | some later => exact (named_named styled id later).symm

theorem register_runs {r : Run} (h : Styled n) (id : String) :
    (register n (.str id)).Yields r (fun m s => m = named id n ∧
      s.context = r.context.setBlock (.str id) (named id n)) False := by
  refine (register_yields (by nofun) fun none => none h).mono ?_
  rintro m s ⟨-, stored, as, has, rfl⟩
  have same : n.styled as [(idKey, .str id)] = named id n := (named_eq has).symm
  rw [same] at stored
  exact ⟨same, stored⟩

section Attach

variable {ns done before : List Node} {r : Run}

theorem attach_unmarked (h : n.info.get? markerKey = none) :
    attach done (n :: ns) = attach (plain n :: done) ns := by
  rw [attach.eq_def]
  simp only [h]
  rfl

theorem attach_marked (h : n.info.get? markerKey = some (.str id)) :
    attach (m :: before) (n :: ns) =
      register m (.str id) >>= fun named => attach (named :: before) ns := by
  rw [attach.eq_def]
  simp only [h]
  rfl

theorem attach_first (h : n.info.get? markerKey = none ∨ ∃ id, n.info.get? markerKey = some (.str id)) :
    attach [] (n :: ns) = attach [plain n] ns := by
  rcases h with unmarked | ⟨id, marked⟩
  · exact attach_unmarked unmarked
  · rw [attach.eq_def]
    simp only [marked]
    rfl

/-- Handing on ids, with `m` as the last block that is done. -/
theorem attach_runs (c : Container) (ready : ∀ n ∈ ns, Ready n) :
    ∀ (first : Bool) (m : Node) (before : List Node) (r : Run), Styled m →
      (attach (m :: before) ns).Yields r (fun out s =>
        out = before.reverse ++ (fateBefore ns).apply m :: handOnAfter ns ∧
          s.context = recordAll r.context (handed c first m ns)) False := by
  induction ns with
  | nil =>
      intro first m before r styled
      rw [attach]
      refine .pure ⟨?_, rfl⟩
      rw [List.reverse_cons]
      rfl
  | cons n ns ih =>
      intro first m before r styled
      obtain ⟨ofHead, ofRest⟩ := List.forall_mem_cons.mp ready
      rcases ofHead.marker with unmarked | ⟨id, marked⟩
      · have none := marker?_eq_none unmarked
        rw [attach_unmarked unmarked]
        refine (ih ofRest false (plain n) (m :: before) r ofHead.styled.plain).mono ?_
        rintro out s ⟨rfl, recorded⟩
        rw [fateBefore_unmarked none, handed, handOnAfter, none]
        refine ⟨?_, recorded⟩
        rw [List.reverse_cons, List.append_assoc]
        rfl
      · have some := marker?_eq_some marked
        rw [attach_marked marked]
        refine (register_runs styled id).bind ?_
        rintro _ s ⟨rfl, stored⟩
        refine (ih ofRest first (named id m) before s (styled.named id)).mono ?_
        rintro out t ⟨rfl, recorded⟩
        rw [fateBefore_marked some styled, handed, handOnAfter, some]
        refine ⟨rfl, ?_⟩
        rw [recorded, stored]
        rfl

/-- Handing on ids among the children of a container. -/
theorem handOn_runs (c : Container) (ready : ∀ n ∈ ns, Ready n) :
    (attach [] ns).Yields r (fun out s => out = handOn ns ∧
      s.context = recordAll r.context (handedOn c ns)) False := by
  cases ns with
  | nil => exact .pure ⟨rfl, rfl⟩
  | cons n ns =>
      obtain ⟨ofHead, ofRest⟩ := List.forall_mem_cons.mp ready
      rw [attach_first ofHead.marker]
      exact attach_runs c ofRest true (plain n) [] r ofHead.styled.plain

end Attach

/-- A container that is no item keeps its blocks as they are. -/
theorem closed_of_kind {c : Container} (h : c.kind ≠ .listItem) (ns : List Node) (info : Record) :
    closed c ns info = .branch c ns info ∧ ∀ f, adoption f c ns info = [] := by
  have gives (n : Node) : gives c n = false := by simp [Blocks.gives, h]
  cases ns with
  | nil => exact ⟨rfl, fun _ => rfl⟩
  | cons n ns => simp [closed, adoption, givenId?, giveFirst, gives]

theorem eq_of_gives {c : Container} (h : gives c n = true) :
    ∃ content info, n = .branch .paragraph content info := by
  obtain ⟨-, paragraph⟩ : c.kind = .listItem ∧ n.kind = .paragraph := by simpa [gives] using h
  cases n with
  | leaf l info => cases l <;> cases paragraph
  | table header rows al info => cases paragraph
  | branch c content info =>
      cases c with
      | paragraph => exact ⟨content, info, rfl⟩
      | _ => cases paragraph

theorem adoptId_runs {mark : Option TaskMark} {out : List Node} {info : Record} {r : Run}
    (f : Fate) (first : ∀ n ∈ out.head?, Ready n)
    (styled : Styled (.branch (.listItem mark) out info)) :
    (adoptId mark out info).Yields r (fun m s => m = closed (.listItem mark) out info ∧
      s.context = recordAll r.context (adoption f (.listItem mark) out info)) False := by
  unfold adoptId
  dsimp only
  split
  · next content firstInfo rest =>
      have ready : Ready (.branch .paragraph content firstInfo) := first _ rfl
      obtain ⟨as, has⟩ := ready.styled
      have ofFirst : idOf? (.branch .paragraph content firstInfo) = as.get? idKey := idOf?_eq has
      refine .bind_of_outcome (s := r) (a := as) ?_ (.refl _) ?_
      · have readable : attrsOf firstInfo = .ok as := has.attrsOf
        rw [readable, StageM.outcome_ofExcept_ok]
      · cases present : as.get? idKey with
        | none =>
            rw [present] at ofFirst
            refine .pure ⟨?_, ?_⟩
            · simp [closed, givenId?, giveFirst, ofFirst, nameless_of_none ready.styled ofFirst]
            · simp [adoption, givenId?, ofFirst, recordAll]
        | some v =>
            rw [present] at ofFirst
            obtain ⟨id, rfl⟩ := ready.id v ofFirst
            have given : givenId? (.listItem mark) (.branch .paragraph content firstInfo :: rest) =
                some id := by simp [givenId?, gives, ofFirst, Container.kind, kind]
            have left : giveFirst (.listItem mark) (.branch .paragraph content firstInfo :: rest) =
                .branch .paragraph content (firstInfo.set attrsKey (.map (as.erase idKey))) :: rest := by
              have gone := nameless_of_some has ofFirst
              simp [giveFirst, gives, Container.kind, kind, gone, withInfo, Node.info]
            refine .bind_modifyContext ?_
            have item : Styled (.branch (.listItem mark) (.branch .paragraph content
                (firstInfo.set attrsKey (.map (as.erase idKey))) :: rest) info) := styled.congr rfl
            refine (register_runs item id).mono ?_
            rintro m s ⟨rfl, stored⟩
            rw [closed, adoption, given, left]
            exact ⟨rfl, stored⟩
  · next other =>
      refine .pure ?_
      cases out with
      | nil => exact ⟨rfl, rfl⟩
      | cons n rest =>
          have kept : gives (.listItem mark) n = false := by
            by_contra given
            obtain ⟨content, firstInfo, rfl⟩ := eq_of_gives (by simpa using given)
            exact other content firstInfo rest rfl
          simp [closed, adoption, givenId?, giveFirst, kept, recordAll]

theorem markParagraph_eq (content : List Node) (info : Record) : markParagraph content info =
    match trailing? content with
    | none => pure (.branch .paragraph content info)
    | some marker =>
      if isLone marker content then
        pure (.branch .paragraph content (info.set markerKey (.str marker.id)))
      else register (unmarked marker content info) (.str marker.id) := by
  unfold markParagraph trailing?
  cases content.getLast? with
  | none => rfl
  | some last =>
      cases last with
      | leaf l _ =>
          cases l with
          | text text =>
              dsimp only
              cases BlockMarker.parse? text with
              | none => rfl
              | some marker => rfl
          | _ => rfl
      | _ => rfl

theorem markParagraph_runs {content : List Node} {info : Record} {r : Run} (f : Fate)
    (styled : Styled (.branch .paragraph content info)) :
    (markParagraph content info).Yields r (fun m s => m = readParagraph content info ∧
      s.context = recordAll r.context (paragraphNamings f content info)) False := by
  rw [markParagraph_eq]
  unfold readParagraph paragraphNamings
  cases trailing? content with
  | none => exact .pure ⟨rfl, rfl⟩
  | some marker =>
      cases lone : isLone marker content with
      | true =>
          simp only [lone, if_true]
          exact .pure ⟨rfl, rfl⟩
      | false =>
          simp only [lone, Bool.false_eq_true, if_false]
          have cut : Styled (unmarked marker content info) := styled.congr rfl
          exact register_runs cut marker.id

theorem Ready.apply_fateBefore (h : Ready n) (ns : List Node) : Ready ((fateBefore ns).apply n) := by
  unfold fateBefore
  cases lastMarker? ns with
  | none => exact h
  | some id => exact h.named id

theorem ready_handOn {ns : List Node} (ready : ∀ n ∈ ns, Ready n) : ∀ n ∈ (handOn ns).head?, Ready n := by
  cases ns with
  | nil => nofun
  | cons n ns =>
      rintro _ ⟨⟩
      exact (ready n List.mem_cons_self).plain.apply_fateBefore ns

/-- What a visit does to a container whose children are done. -/
theorem visitMarker_runs {c : Container} {new : List Node} {info : Record} {inLink : Bool} {o : Options}
    {r : Run} (f : Fate) (styled : Styled (.branch c new info)) (ready : ∀ n ∈ new, Ready n) :
    (visitMarker o inLink (.branch c new info)).Yields r (fun k s =>
      k = some (markBranch c new info) ∧ s.context = recordAll r.context (ownNamings f c new info))
      False := by
  have block (kind : c.kind ≠ .listItem) (hands : handsOn c = true) :
      (attach [] new >>= fun out => pure (some (Node.branch c out info))).Yields r (fun k s =>
        k = some (closed c (handOn new) info) ∧
          s.context = recordAll r.context (handedOn c new ++ adoption f c (handOn new) info)) False := by
    refine (handOn_runs c ready).bind ?_
    rintro out s ⟨rfl, recorded⟩
    obtain ⟨same, none⟩ := closed_of_kind kind (handOn new) info
    rw [same, none, List.append_nil]
    exact .pure ⟨rfl, recorded⟩
  cases c with
  | paragraph =>
      refine .map ((markParagraph_runs f styled).mono ?_)
      rintro m s ⟨rfl, recorded⟩
      exact ⟨rfl, recorded⟩
  | document => exact block (by decide) rfl
  | blockQuote => exact block (by decide) rfl
  | listItem mark =>
      refine (handOn_runs (.listItem mark) ready).bind ?_
      rintro out s ⟨rfl, handed⟩
      refine .map ((adoptId_runs f (ready_handOn ready) (styled.congr rfl)).mono ?_)
      rintro m t ⟨rfl, adopted⟩
      refine ⟨rfl, ?_⟩
      rw [adopted, handed, ← recordAll_append]
      rfl
  | _ => exact .pure ⟨rfl, rfl⟩

@[simp] theorem kind_mark (n : Node) : (mark n).kind = n.kind := by
  have closing (c : Container) (ns : List Node) (info : Record) : (closed c ns info).kind = c.kind := by
    unfold closed
    split
    · rfl
    · exact kind_named _ _
  cases n with
  | leaf l info => rfl
  | table header rows al info => cases header <;> rfl
  | branch c cs info =>
      cases c with
      | paragraph =>
          rw [mark, markBranch]
          unfold readParagraph
          split
          · rfl
          · split
            · rfl
            · exact kind_named _ _
      | document => exact closing _ _ _
      | blockQuote => exact closing _ _ _
      | listItem => exact closing _ _ _
      | _ => rfl

theorem namings_of_text (h : n.kind = .text) (f : Fate) : namings f n = [] := by
  cases n with
  | leaf l info => rfl
  | branch c cs info => cases c <;> cases h
  | table header rows al info => cases h

/-- A single text is all that a lone marker leaves in a paragraph, so nothing in it is named. -/
theorem namingsAmong_of_lone {cs : List Node} {marker : BlockMarker}
    {fate : Bool → Node → List Node → Fate} {first : Bool}
    (found : trailing? (markAll cs) = some marker) (lone : isLone marker (markAll cs) = true) :
    namingsAmong fate first cs = [] := by
  have one : (markAll cs).length = 1 := by
    rw [isLone, Bool.and_eq_true, beq_iff_eq] at lone
    exact lone.2
  cases cs with
  | nil => rfl
  | cons n ns =>
      cases ns with
      | cons _ _ => cases one
      | nil =>
          have text : n.kind = .text := by
            rw [← kind_mark]
            unfold trailing? at found
            split at found
            · next last =>
                rw [show mark n = _ from Option.some.inj last]
                rfl
            · cases found
          rw [namingsAmong, namings_of_text text]
          rfl

section Branch

variable {c : Container}

theorem markBranch_of_ne (h : c ≠ .paragraph) (new : List Node) (info : Record) :
    markBranch c new info = if handsOn c then closed c (handOn new) info else .branch c new info := by
  cases c <;> first | rfl | exact absurd rfl h

theorem ownNamings_of_ne (h : c ≠ .paragraph) (f : Fate) (new : List Node) (info : Record) :
    ownNamings f c new info = if handsOn c then handedOn c new ++ adoption f c (handOn new) info else [] := by
  cases c <;> first | rfl | exact absurd rfl h

@[simp] theorem children_closed (c : Container) (ns : List Node) (info : Record) :
    (closed c ns info).children = giveFirst c ns := by
  unfold closed
  split
  · rfl
  · exact children_named _ _

end Branch

/-- What the stage makes of the root of a tree. -/
inductive Turned (n : Node) : Prop
  /-- The root gets neither an id nor a marker. -/
  | same : (mark n).info = n.info → Turned n
  /-- The root is nothing but a marker, and nothing in it is named. -/
  | lone (id : String) : (mark n).info = n.info.set markerKey (.str id) →
      (∀ f, namings f n = []) → Turned n
  /-- The root gets an id. -/
  | named (m : Node) (id : String) (moved : Bool) : m.info = n.info → mark n = Blocks.named id m →
      (∀ f, ⟨id, mark n, f, moved⟩ ∈ namings f n) → Turned n

theorem turned (n : Node) : Turned n := by
  cases n with
  | leaf l info => exact .same rfl
  | table header rows al info => cases header <;> exact .same rfl
  | branch c cs info =>
      by_cases paragraph : c = .paragraph
      · subst paragraph
        cases found : trailing? (markAll cs) with
        | none =>
            refine .same ?_
            rw [mark, markBranch, readParagraph, found]
            rfl
        | some marker =>
            cases lone : isLone marker (markAll cs) with
            | true =>
                refine .lone marker.id ?_ fun f => ?_
                · rw [mark, markBranch, readParagraph, found]
                  simp only [lone, if_true]
                  rfl
                · rw [namings, namingsAmong_of_lone found lone, ownNamings, paragraphNamings, found]
                  simp only [lone, if_true]
                  rfl
            | false =>
                have read : mark (.branch .paragraph cs info) =
                    Blocks.named marker.id (unmarked marker (markAll cs) info) := by
                  rw [mark, markBranch, readParagraph, found]
                  simp only [lone, Bool.false_eq_true, if_false]
                refine .named (unmarked marker (markAll cs) info) marker.id false rfl read fun f => ?_
                rw [read, namings, ownNamings, paragraphNamings, found]
                simp only [lone, Bool.false_eq_true, if_false]
                exact List.mem_append_right _ List.mem_cons_self
      · have branch := markBranch_of_ne paragraph (markAll cs) info
        cases hands : handsOn c with
        | false => exact .same (by rw [mark, branch, hands]; rfl)
        | true =>
            rw [hands, if_pos rfl] at branch
            cases given : givenId? c (handOn (markAll cs)) with
            | none => exact .same (by rw [mark, branch, closed, given]; rfl)
            | some id =>
                rw [closed, given] at branch
                refine .named (.branch c (giveFirst c (handOn (markAll cs))) info) id true rfl branch
                  fun f => ?_
                rw [mark, branch, namings, ownNamings_of_ne paragraph, hands, if_pos rfl, adoption, given]
                exact List.mem_append_right _ (List.mem_append_right _ List.mem_cons_self)

theorem ready_mark (h : Unmarked n) : Ready (mark n) := by
  cases turned n with
  | same info => exact (h.congr info).ready
  | lone id info => exact h.marked info
  | named m id _ info root =>
      rw [root]
      exact (h.congr info).ready.named id

theorem markAll_eq_map (ns : List Node) : markAll ns = ns.map mark := by
  induction ns with
  | nil => rfl
  | cons n ns ih => rw [markAll, ih, List.map_cons]

theorem ready_markAll {ns : List Node} (h : ∀ n ∈ ns, Unmarked n) : ∀ m ∈ markAll ns, Ready m := by
  intro m hm
  rw [markAll_eq_map] at hm
  obtain ⟨n, hn, rfl⟩ := List.mem_map.mp hm
  exact ready_mark (h n hn)

/-- On a tree without markers that wait the stage gives the tree and the names that `mark` and `namings` say. -/
theorem transform_runs (o : Options) (n : Node) : ∀ f inLink r, All Unmarked n →
    (n.transform (visitMarker o) inLink).Yields r (fun k s =>
      k = some (mark n) ∧ s.context = recordAll r.context (namings f n)) False := by
  -- what holds of each node of a list holds of the list
  have list : ∀ ns : List Node, (∀ n ∈ ns, ∀ f inLink r, All Unmarked n →
      (n.transform (visitMarker o) inLink).Yields r (fun k s =>
        k = some (mark n) ∧ s.context = recordAll r.context (namings f n)) False) →
      (∀ n ∈ ns, All Unmarked n) → ∀ fate first inLink r,
      (transformAll (visitMarker o) inLink ns).Yields r (fun new s =>
        new = markAll ns ∧ s.context = recordAll r.context (namingsAmong fate first ns)) False := by
    intro ns each all fate first inLink
    induction ns generalizing first with
    | nil =>
        intro r
        exact .pure ⟨rfl, rfl⟩
    | cons n ns ih =>
        intro r
        obtain ⟨ofHead, ofRest⟩ := List.forall_mem_cons.mp all
        rw [transformAll]
        refine (each n List.mem_cons_self (fate first (mark n) (markAll ns)) inLink r ofHead).bind ?_
        rintro _ s ⟨rfl, given⟩
        refine (ih (fun k hk => each k (List.mem_cons_of_mem _ hk)) ofRest false s).bind ?_
        rintro _ t ⟨rfl, later⟩
        refine .pure ⟨rfl, ?_⟩
        rw [later, given, namingsAmong, recordAll_append]
  induction n using induct with
  | leaf l info =>
      intro f inLink r all
      exact .pure ⟨rfl, rfl⟩
  | branch c cs info ih =>
      intro f inLink r all
      obtain ⟨self, below⟩ := all_branch.mp all
      rw [transform]
      refine (list cs ih below (fateIn c) true _ r).bind ?_
      rintro _ s ⟨rfl, among⟩
      have styled : Styled (.branch c (markAll cs) info) := self.styled.congr rfl
      have ready := ready_markAll fun n hn => (below n hn).self
      refine (visitMarker_runs f styled ready).mono ?_
      rintro k t ⟨rfl, own⟩
      refine ⟨rfl, ?_⟩
      rw [own, among, namings, recordAll_append]
  | table header rows al info hheader hrows =>
      intro f inLink r all
      obtain ⟨self, ofHeader, ofRows⟩ := all_table.mp all
      cases header with
      | none =>
          rw [transform]
          refine (list rows hrows ofRows (fun _ _ _ => .keep) true _ r).bind ?_
          rintro _ s ⟨rfl, among⟩
          exact .pure ⟨rfl, among⟩
      | some header =>
          rw [transform]
          refine (list rows hrows ofRows (fun _ _ _ => .keep) true _ r).bind ?_
          rintro _ s ⟨rfl, among⟩
          refine (hheader header rfl .keep inLink s (ofHeader header rfl)).bind ?_
          rintro _ t ⟨rfl, ofHeader⟩
          refine .pure ⟨rfl, ?_⟩
          rw [ofHeader, among, namings, recordAll_append]

end NoteMarkup.Stage.Blocks
