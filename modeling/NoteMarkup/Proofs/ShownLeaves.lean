import NoteMarkup.Proofs.LateStages
import NoteMarkup.Proofs.RenderedText
import NoteMarkup.Proofs.ShownMedia

/-! The leaves that a rendering shows. A change to leaves alone changes the markup just where the leaves
stand in it, and the markup of the changed tree can be had if and only if that of the tree can. -/

namespace NoteMarkup.Html

open Node

/-- The node as a leaf. -/
def leaf? : Node → Option (Leaf × Record)
  | .leaf l info => some (l, info)
  | _ => none

mutual

/-- The leaves that are shown, in order. Rows and cells that stand anywhere else are passed over. -/
def shown : Place → Node → List (Leaf × Record)
  | .flow, .leaf l info => [(l, info)]
  | .flow, .branch (.tableRow _) _ _ => []
  | .flow, .branch (.tableCell _) _ _ => []
  | .flow, .branch _ cs _ => shownIn .flow cs
  | .flow, .table none rows _ _ => shownIn .row rows
  | .flow, .table (some header) rows _ _ => shown .row header ++ shownIn .row rows
  | .row, .branch (.tableRow _) cells _ => shownIn .cell cells
  | .cell, .branch (.tableCell _) cs _ => shownIn .flow cs
  | _, _ => []

/-- The leaves that are shown of nodes one after the other. -/
def shownIn : Place → List Node → List (Leaf × Record)
  | _, [] => []
  | place, n :: ns => shown place n ++ shownIn place ns

end

/-! ### Which leaves are shown -/

/-- The leaves of a tree, in order. -/
def leaves (n : Node) : List (Leaf × Record) := n.nodes.filterMap leaf?

/-- The place for what a node holds. -/
def placeIn : Node → Place
  | .table _ _ _ _ => .row
  | .branch (.tableRow _) _ _ => .cell
  | _ => .flow

/-- What a node holds stands in its place: rows in tables, cells in rows, and all else anywhere else. -/
def isPlaced (n : Node) : Bool := n.children.all fun c => c.place == placeIn n

theorem shownIn_eq_flatMap (place : Place) (ns : List Node) :
    shownIn place ns = ns.flatMap (shown place) := by
  induction ns with
  | nil => rfl
  | cons n ns ih => rw [shownIn, ih, List.flatMap_cons]

theorem shown_place (n : Node) : shown n.place n = (leaf? n).toList ++ shownIn (placeIn n) n.children := by
  cases n with
  | leaf l info => rfl
  | branch c cs info => cases c <;> rfl
  | table header rows al info => cases header <;> rfl

theorem leaves_eq (n : Node) : leaves n = (leaf? n).toList ++ n.children.flatMap leaves := by
  have list (ns : List Node) : (nodesOf ns).filterMap leaf? = ns.flatMap leaves := by
    induction ns with
    | nil => rfl
    | cons n ns ih => rw [nodesOf, List.filterMap_append, ih, List.flatMap_cons, leaves]
  rw [leaves, nodes_eq_cons, List.filterMap_cons, list]
  cases leaf? n <;> rfl

theorem shown_of_place_ne {place : Place} {n : Node} (other : n.place ≠ place) : shown place n = [] := by
  cases n with
  | leaf l info => cases place <;> first | rfl | exact (other rfl).elim
  | branch c cs info => cases place <;> cases c <;> first | rfl | exact (other rfl).elim
  | table header rows al info => cases place <;> first | rfl | exact (other rfl).elim

theorem mem_leaves {n : Node} {l : Leaf} {info : Record} : (l, info) ∈ leaves n ↔ .leaf l info ∈ n.nodes := by
  have same (m : Node) : leaf? m = some (l, info) ↔ m = .leaf l info := by
    cases m <;> simp [leaf?]
  rw [leaves, List.mem_filterMap]
  simp only [same, exists_eq_right]

/-- Only leaves of the tree are shown. -/
theorem mem_leaves_of_mem_shown {n : Node} {p : Leaf × Record} :
    ∀ place : Place, p ∈ shown place n → p ∈ leaves n := by
  induction n using induct_children with
  | step n ih =>
      intro place member
      by_cases here : n.place = place
      · subst here
        rw [shown_place, shownIn_eq_flatMap] at member
        rw [leaves_eq, List.mem_append, List.mem_flatMap]
        rcases List.mem_append.mp member with self | below
        · exact .inl self
        · obtain ⟨c, hc, inside⟩ := List.mem_flatMap.mp below
          exact .inr ⟨c, hc, ih c hc _ inside⟩
      · rw [shown_of_place_ne here] at member
        cases member

/-- If all is in its place, every leaf is shown. -/
theorem shown_eq_leaves {n : Node} (placed : All (isPlaced · = true) n) : shown n.place n = leaves n := by
  induction n using induct_children with
  | step n ih =>
      obtain ⟨self, below⟩ := all_iff.mp placed
      rw [shown_place, leaves_eq, shownIn_eq_flatMap]
      refine congrArg (_ ++ ·) (List.flatMap_congr fun c hc => ?_)
      have here : c.place = placeIn n := by simpa using List.all_eq_true.mp self c hc
      rw [← here, ih c hc (below c hc)]

/-! ### Markup with other leaves in it -/

/-- The second text is the first with some parts replaced, in order. -/
inductive Exchanged : List (String × String) → String → String → Prop where
  | rest (s : String) : Exchanged [] s s
  | next (front old new : String) {s t : String} {swaps : List (String × String)} :
      Exchanged swaps s t → Exchanged ((old, new) :: swaps) (front ++ old ++ s) (front ++ new ++ t)

namespace Exchanged

variable {swaps more : List (String × String)} {s t s' t' : String}

theorem after (front : String) (h : Exchanged swaps s t) : Exchanged swaps (front ++ s) (front ++ t) := by
  cases h with
  | rest s => exact .rest _
  | next first old new h =>
      have longer := h.next (front ++ first) old new
      simpa only [String.append_assoc] using longer

theorem append (h : Exchanged swaps s t) (h' : Exchanged more s' t') :
    Exchanged (swaps ++ more) (s ++ s') (t ++ t') := by
  induction h with
  | rest s => exact h'.after s
  | next front old new _ ih =>
      have longer := ih.next front old new
      simpa only [String.append_assoc, List.cons_append] using longer

theorem before (back : String) (h : Exchanged swaps s t) : Exchanged swaps (s ++ back) (t ++ back) := by
  have whole := h.append (.rest back)
  rwa [List.append_nil] at whole

theorem single (old new : String) : Exchanged [(old, new)] old new := by
  have whole := (Exchanged.rest "").next "" old new
  simpa only [String.empty_append, String.append_empty] using whole

end Exchanged

/-- Two renderings that both fail, or whose texts are the same but for the leaves shown. -/
inductive Refilled (f : Leaf × Record → Leaf × Record) :
    List (Leaf × Record) → Except Fault String → Except Fault String → Prop where
  | ok {leaves : List (Leaf × Record)} {swaps : List (String × String)} {s t : String} :
      Exchanged swaps s t →
      List.Forall₂ (fun p swap => renderLeaf p.1 p.2 = .ok swap.1 ∧
        renderLeaf (f p).1 (f p).2 = .ok swap.2) leaves swaps → Refilled f leaves (.ok s) (.ok t)
  | error (leaves : List (Leaf × Record)) (e e' : Fault) : Refilled f leaves (.error e) (.error e')

namespace Refilled

variable {f : Leaf × Record → Leaf × Record} {ps qs : List (Leaf × Record)}
  {x y x' y' : Except Fault String}

theorem text (s : String) : Refilled f [] (.ok s) (.ok s) := .ok (.rest s) .nil

theorem leaf {p : Leaf × Record} {old new : String} (h : renderLeaf p.1 p.2 = .ok old)
    (h' : renderLeaf (f p).1 (f p).2 = .ok new) :
    Refilled f [p] (renderLeaf p.1 p.2) (renderLeaf (f p).1 (f p).2) := by
  rw [h, h']
  exact .ok (.single old new) (.cons ⟨h, h'⟩ .nil)

theorem same {p : Leaf × Record} (kept : f p = p) :
    Refilled f [p] (renderLeaf p.1 p.2) (renderLeaf (f p).1 (f p).2) := by
  cases rendered : renderLeaf p.1 p.2 with
  | ok s =>
      have again : renderLeaf (f p).1 (f p).2 = .ok s := by rw [kept, rendered]
      rw [← rendered]
      exact leaf rendered again
  | error e =>
      rw [kept, rendered]
      exact .error _ e e

theorem framed (first last : String) {shown : String → String}
    (same : ∀ s, shown s = first ++ s ++ last) (h : Refilled f ps x y) :
    Refilled f ps (do return shown (← x)) (do return shown (← y)) := by
  cases h with
  | error e e' => exact .error _ e e'
  | ok exchanged leaves =>
      refine .ok ?_ leaves
      rw [same, same]
      exact (exchanged.after first).before last

/-- Two contents in one frame. -/
theorem pair (first middle last : String) {shown : String → String → String}
    (same : ∀ s s', shown s s' = first ++ s ++ (middle ++ s' ++ last)) (h : Refilled f ps x y)
    (h' : Refilled f qs x' y') :
    Refilled f (ps ++ qs) (do let s ← x; return shown s (← x')) (do let s ← y; return shown s (← y')) := by
  cases h with
  | error e e' => exact .error _ e e'
  | ok exchanged leaves =>
      cases h' with
      | error e e' => exact .error _ e e'
      | ok exchanged' leaves' =>
          refine .ok ?_ (List.rel_append leaves leaves')
          rw [same, same]
          exact (exchanged.after first).append ((exchanged'.after middle).before last)

theorem seq (h : Refilled f ps x y) (h' : Refilled f qs x' y') :
    Refilled f (ps ++ qs) (do let s ← x; return s ++ (← x')) (do let s ← y; return s ++ (← y')) :=
  h.pair "" "" "" (fun s s' => by simp) h'

theorem given {α : Type} {z : Except Fault α} {k k' : α → Except Fault String}
    (h : ∀ a, Refilled f ps (k a) (k' a)) : Refilled f ps (z >>= k) (z >>= k') := by
  cases z with
  | error e => exact .error ps e e
  | ok a => exact h a

/-- What is given is asked for after the content. -/
theorem then_given {α : Type} {z : Except Fault α} (shown : α → String → String)
    (h : ∀ a, Refilled f ps (do return shown a (← x)) (do return shown a (← y))) :
    Refilled f ps (do let s ← x; let a ← z; return shown a s)
      (do let s ← y; let a ← z; return shown a s) := by
  cases z with
  | ok a => exact h a
  | error e => cases x <;> cases y <;> exact .error ps _ _

end Refilled

/-! ### Rendering of a tree with other leaves -/

variable {f : Leaf × Record → Leaf × Record} {raises : Leaf → Bool}

/-- An element is its content between two tags. -/
theorem element_frame (name attrs s : String) :
    element name attrs s = ("<" ++ name ++ attrs ++ ">") ++ s ++ ("</" ++ name ++ ">") := by
  simp only [element, String.append_assoc]

theorem element_line_frame (name attrs s : String) :
    element name attrs s ++ "\n" =
      ("<" ++ name ++ attrs ++ ">") ++ s ++ ("</" ++ name ++ ">\n") := by
  apply String.ext
  simp [element]

/-- A leaf and the one in its place both render, or neither does. -/
def Exchanges (f : Leaf × Record → Leaf × Record) : Prop :=
  ∀ p, Refilled f [p] (renderLeaf p.1 p.2) (renderLeaf (f p).1 (f p).2)

/- The induction is on the tree, as in the rendering. -/
mutual

theorem render_refilled (leaf : Exchanges f) (tight : Bool) : (n : Node) →
    Refilled f (shown .flow n) (render tight n) (render tight ((Retouch.ofLeaf f raises).tree n))
  | .leaf l info => leaf (l, info)
  | .branch c cs info => by
      have content (tight : Bool) := renderAll_refilled leaf tight cs
      cases c with
      | document => exact content tight
      | heading level => exact .then_given _ fun attrs => (content tight).framed _ _ (element_line_frame _ attrs)
      | paragraph =>
          refine .then_given (fun attrs s =>
            if tight && attrs.isEmpty then s else element "p" attrs s ++ "\n") fun attrs => ?_
          cases tight && attrs.isEmpty with
          | true => exact (content tight).framed "" "" fun s => by simp
          | false => exact (content tight).framed _ _ (element_line_frame "p" attrs)
      | blockQuote => exact .given fun attrs => (content false).framed _ _ (element_eq _ attrs)
      | list ordered start tight => exact .given fun attrs => (content tight).framed _ _ (element_eq _ attrs)
      | listItem mark =>
          refine .given fun attrs => (content tight).framed
            ("<li" ++ attrs ++ ">" ++ taskBox mark info) "</li>\n" fun s => ?_
          apply String.ext
          simp [element]
      | tableRow header => exact .text ""
      | tableCell own => exact .text ""
      | emphasis => exact (content tight).framed _ _ (element_frame "em" "")
      | strong => exact (content tight).framed _ _ (element_frame "strong" "")
      | strikethrough => exact (content tight).framed _ _ (element_frame "del" "")
      | link url title => exact .then_given _ fun attrs => (content tight).framed _ _ (element_frame "a" attrs)
      | highlight => exact (content tight).framed _ _ fun _ => rfl
  | .table none [] al info => .given fun attrs => .text _
  | .table none (row :: rows) al info => by
      have body := renderRows_refilled leaf tight "td" al (row :: rows)
      refine .given fun attrs => body.framed ("<table" ++ attrs ++ ">\n<tbody>\n")
        "</tbody>\n</table>\n" fun s => ?_
      apply String.ext
      simp [element]
  | .table (some header) rows al info => by
      have head := renderRow_refilled leaf tight "th" al header
      have body := renderRows_refilled leaf tight "td" al rows
      refine .given fun attrs => ?_
      cases rows with
      | nil =>
          have none : shown .row header = shown .flow (.table (some header) [] al info) :=
            (List.append_nil _).symm
          rw [← none]
          refine head.framed ("<table" ++ attrs ++ ">\n<thead>\n") "</thead>\n</table>\n" fun s => ?_
          apply String.ext
          simp [element]
      | cons row rows =>
          refine head.pair ("<table" ++ attrs ++ ">\n<thead>\n") "</thead>\n<tbody>\n"
            "</tbody>\n</table>\n" (fun s s' => ?_) body
          apply String.ext
          simp [element]

theorem renderAll_refilled (leaf : Exchanges f) (tight : Bool) : (ns : List Node) →
    Refilled f (shownIn .flow ns) (renderAll tight ns)
      (renderAll tight ((Retouch.ofLeaf f raises).trees ns))
  | [] => .text ""
  | n :: ns => (render_refilled leaf tight n).seq (renderAll_refilled leaf tight ns)

theorem renderRow_refilled (leaf : Exchanges f) (tight : Bool) (cell : String)
    (al : List (Option String)) : (row : Node) → Refilled f (shown .row row)
      (renderRow tight cell al row) (renderRow tight cell al ((Retouch.ofLeaf f raises).tree row))
  | .leaf l info => .error _ _ _
  | .table none rows al info => .error _ _ _
  | .table (some header) rows al info => .error _ _ _
  | .branch c cs info => by
      have content := renderCells_refilled leaf tight cell al cs
      cases c with
      | tableRow header => exact content.framed _ _ (element_line_frame "tr" "")
      | _ => exact .error _ _ _

theorem renderRows_refilled (leaf : Exchanges f) (tight : Bool) (cell : String)
    (al : List (Option String)) : (rows : List Node) → Refilled f (shownIn .row rows)
      (renderRows tight cell al rows) (renderRows tight cell al ((Retouch.ofLeaf f raises).trees rows))
  | [] => .text ""
  | row :: rows => (renderRow_refilled leaf tight cell al row).seq
      (renderRows_refilled leaf tight cell al rows)

theorem renderCells_refilled (leaf : Exchanges f) (tight : Bool) (cell : String)
    (al : List (Option String)) : (cells : List Node) → Refilled f (shownIn .cell cells)
      (renderCells tight cell al cells)
      (renderCells tight cell al ((Retouch.ofLeaf f raises).trees cells))
  | [] => by cases al <;> exact .text ""
  | .leaf l info :: cells => .error _ _ _
  | .table none rows _ info :: cells => .error _ _ _
  | .table (some header) rows _ info :: cells => .error _ _ _
  | .branch c cs info :: cells => by
      have content := renderAll_refilled leaf tight cs
      have later := renderCells_refilled leaf tight cell al.tail cells
      cases c with
      | tableCell own =>
          have first := Refilled.then_given (z := nodeAttributes (cellStyle own al.head?.join) info)
            _ fun attrs => content.framed _ _ (element_frame cell attrs)
          have whole := first.seq later
          simp only [bind_assoc, pure_bind] at whole
          exact whole
      | _ => exact .error _ _ _

end

end NoteMarkup.Html
