import NoteMarkup.Html.Render

/-! What a node renders as. Whether the innermost list or quote around a node is a tight list is all
that its markup depends on besides the node, so the markup is a function of the two. The renderer
writes this markup after what it has written before, whatever that is, and leaves open what was open;
where the function gives a fault, the renderer fails with it. -/

namespace NoteMarkup.Html

mutual

/-- A node; `tight` tells whether the innermost list or quote around it is a tight list. -/
def render (tight : Bool) : Node → Except Fault String
  | .leaf l info => renderLeaf l info
  | .branch .document cs _ => renderAll tight cs
  | .branch (.heading level) cs info => do
    let content ← renderAll tight cs
    return element ("h" ++ level.text) (← nodeAttributes [] info) content ++ "\n"
  | .branch .paragraph cs info => do
    let content ← renderAll tight cs
    let attrs ← nodeAttributes [] info
    return if tight && attrs.isEmpty then content else element "p" attrs content ++ "\n"
  | .branch .blockQuote cs info => do
    let name := match info.get? Node.tagKey with
      | some v => v.text
      | none => "blockquote"
    let attrs ← nodeAttributes [] info
    let content ← renderAll false cs
    return element name attrs ("\n" ++ content) ++ "\n"
  | .branch (.list ordered start listTight) cs info => do
    let base : Record := if ordered && start != 1 then [(.str "start", .int start)] else []
    let attrs ← nodeAttributes base info
    let content ← renderAll listTight cs
    return element (if ordered then "ol" else "ul") attrs ("\n" ++ content) ++ "\n"
  | .branch (.listItem mark) cs info => do
    let attrs ← nodeAttributes [] info
    let content ← renderAll tight cs
    return element "li" attrs (taskBox mark info ++ content) ++ "\n"
  | .branch (.tableRow _) _ _ => .ok ""
  | .branch (.tableCell _) _ _ => .ok ""
  | .branch .emphasis cs _ => do return element "em" "" (← renderAll tight cs)
  | .branch .strong cs _ => do return element "strong" "" (← renderAll tight cs)
  | .branch .strikethrough cs _ => do return element "del" "" (← renderAll tight cs)
  | .branch (.link url title) cs info => do
    let content ← renderAll tight cs
    return element "a" (← nodeAttributes ((.str "href", .str url) :: titleAttr title) info) content
  | .branch .highlight cs _ => do return "==" ++ (← renderAll tight cs) ++ "=="
  | .table none rows alignments info => do
    let attrs ← nodeAttributes [] info
    let body ← renderRows tight "td" alignments rows
    return element "table" attrs ("\n" ++
      (if rows.isEmpty then "" else element "tbody" "" ("\n" ++ body) ++ "\n")) ++ "\n"
  | .table (some header) rows alignments info => do
    let attrs ← nodeAttributes [] info
    let head ← renderRow tight "th" alignments header
    let body ← renderRows tight "td" alignments rows
    return element "table" attrs ("\n" ++ element "thead" "" ("\n" ++ head) ++ "\n" ++
      (if rows.isEmpty then "" else element "tbody" "" ("\n" ++ body) ++ "\n")) ++ "\n"

/-- Nodes one after the other. -/
def renderAll (tight : Bool) : List Node → Except Fault String
  | [] => .ok ""
  | n :: ns => do
    let first ← render tight n
    return first ++ (← renderAll tight ns)

/-- A row with cells of the given element. -/
def renderRow (tight : Bool) (cell : String) (alignments : List (Option String)) :
    Node → Except Fault String
  | .branch (.tableRow _) cells _ => do
    return element "tr" "" (← renderCells tight cell alignments cells) ++ "\n"
  | n => .error (.missingPart "cells" n.kind)

/-- Rows one after the other. -/
def renderRows (tight : Bool) (cell : String) (alignments : List (Option String)) :
    List Node → Except Fault String
  | [] => .ok ""
  | r :: rs => do
    let first ← renderRow tight cell alignments r
    return first ++ (← renderRows tight cell alignments rs)

/-- Cells one after the other, each with the alignment of its column. -/
def renderCells (tight : Bool) (cell : String) :
    (alignments : List (Option String)) → List Node → Except Fault String
  | _, [] => .ok ""
  | alignments, .branch (.tableCell own) content info :: cs => do
    let inner ← renderAll tight content
    let attrs ← nodeAttributes (cellStyle own (alignments.head?.join)) info
    return element cell attrs inner ++ (← renderCells tight cell alignments.tail cs)
  | _, n :: _ => .error (.missingPart "alignment" n.kind)

end

/-- A step comes out as a rendering says: it writes the text and changes nothing else, or it fails with
the fault, whatever it has changed by then. -/
def Agrees (r : Renderer) (text : Except Fault String) (step : RenderM Unit) : Prop :=
  match text with
  | .ok s => r.run step = (.ok (), { r with output := r.output ++ s })
  | .error f => (r.run step).1 = .error f

namespace Renderer

variable {α β : Type} {r r' : Renderer} {step : RenderM α} {next : α → RenderM β} {a : α} {f : Fault}

theorem run_bind (r : Renderer) (step : RenderM α) (next : α → RenderM β) :
    r.run (step >>= next) = match r.run step with
      | (.ok a, r') => r'.run (next a)
      | (.error f, r') => (.error f, r') := by
  simp only [run, ExceptT.run, StateT.run, bind, ExceptT.bind, ExceptT.mk, StateT.bind,
    ExceptT.bindCont]
  cases step r with
  | mk outcome r' => cases outcome <;> rfl

theorem run_bind_ok (ok : r.run step = (.ok a, r')) : r.run (step >>= next) = r'.run (next a) := by
  rw [run_bind, ok]

theorem run_bind_error (failed : (r.run step).1 = .error f) :
    (r.run (step >>= next)).1 = .error f := by
  rw [run_bind]
  revert failed
  cases r.run step with
  | mk outcome r' => rintro rfl; rfl

end Renderer

namespace Agrees

open RenderM

variable {r : Renderer} {text : Except Fault String} {step : RenderM Unit}

theorem nothing : Agrees r (.ok "") (pure ()) := by
  change (_, _) = (_, _)
  rw [String.append_empty]

theorem write (s : String) : Agrees r (.ok s) (write s) := rfl

theorem given (text : Except Fault String) :
    Agrees r text (do RenderM.write (← MonadExcept.ofExcept text)) := by
  cases text <;> rfl

theorem seq {later : Except Fault String} {next : RenderM Unit} (h : Agrees r text step)
    (after : ∀ r' : Renderer, r'.tight = r.tight → Agrees r' later next) :
    Agrees r (do return (← text) ++ (← later)) (do step; next) := by
  cases text with
  | error f => exact Renderer.run_bind_error h
  | ok s =>
      have run : r.run (do step; next) = _ := Renderer.run_bind_ok h
      have done := after { r with output := r.output ++ s } rfl
      cases later with
      | error f =>
          change (r.run _).1 = _
          rw [run]
          exact done
      | ok t =>
          change r.run _ = (_, { r with output := r.output ++ (s ++ t) })
          rw [run, ← String.append_assoc]
          exact done

/-- A text in front of and behind what a step writes. -/
theorem framed {first last : String} {shown : String → String}
    (same : ∀ s, shown s = first ++ s ++ last)
    (h : ∀ r' : Renderer, r'.tight = r.tight → Agrees r' text step) :
    Agrees r (do return shown (← text)) (do RenderM.write first; step; RenderM.write last) := by
  have parts := (write (r := r) first).seq fun r' same => (h r' same).seq fun _ _ => write last
  revert parts
  cases text with
  | error f => exact id
  | ok s =>
      intro parts
      change Agrees r (.ok (shown s)) _
      rw [same, String.append_assoc]
      exact parts

theorem ofExcept {α : Type} {given : Except Fault α} {later : α → Except Fault String}
    {next : α → RenderM Unit} (after : ∀ a, Agrees r (later a) (next a)) :
    Agrees r (given >>= later) (MonadExcept.ofExcept given >>= next) := by
  cases given with
  | error f => exact Renderer.run_bind_error rfl
  | ok a => exact after a

theorem of_run {other : RenderM Unit} (same : r.run step = r.run other) (h : Agrees r text other) :
    Agrees r text step := by
  cases text with
  | error f => exact (congrArg Prod.fst same).trans h
  | ok s => exact same.trans h

theorem captured {later : String → Except Fault String} {next : String → RenderM Unit}
    (h : ∀ r' : Renderer, r'.tight = r.tight → Agrees r' text step)
    (after : ∀ s, Agrees r (later s) (next s)) :
    Agrees r (text >>= later) (captured step >>= next) := by
  have inner := h { r with output := "" } rfl
  cases text with
  | error f =>
      refine Renderer.run_bind_error ?_
      exact Renderer.run_bind_error (r := { r with output := "" }) inner
  | ok s =>
      have run : r.run (RenderM.captured step) = (.ok s, r) := by
        change Renderer.run { r with output := "" } (step >>= _) = _
        rw [Renderer.run_bind_ok inner, String.empty_append]
        rfl
      exact (after s).of_run (Renderer.run_bind_ok run)

theorem within {tight : Bool} (h : ∀ r' : Renderer, r'.tight = tight → Agrees r' text step) :
    Agrees r text (within tight step) := by
  have inner := h { r with opened := tight :: r.opened } rfl
  cases text with
  | error f =>
      change (Renderer.run { r with opened := tight :: r.opened } (step >>= _)).1 = _
      exact Renderer.run_bind_error inner
  | ok s =>
      change Renderer.run { r with opened := tight :: r.opened } (step >>= _) = _
      rw [Renderer.run_bind_ok inner]
      rfl

/-- A step that starts with nothing written, and one after it that gives what is written. -/
theorem answer {opened : List Bool} {finish : RenderM String} (h : Agrees ⟨"", opened⟩ text step)
    (gives : ∀ s, (Renderer.run ⟨s, opened⟩ finish).1 = .ok s) :
    (Renderer.run ⟨"", opened⟩ (do step; finish)).1 = text := by
  cases text with
  | error f => exact Renderer.run_bind_error h
  | ok s =>
      rw [Renderer.run_bind_ok h, String.empty_append]
      exact gives s

end Agrees

open RenderM

/-- The text between the tags of an element that stands on lines of its own. -/
theorem element_eq (name attrs s : String) :
    element name attrs ("\n" ++ s) ++ "\n" =
      ("<" ++ name ++ attrs ++ ">\n") ++ s ++ ("</" ++ name ++ ">\n") := by
  apply String.ext
  simp [element]

theorem part_agrees {r : Renderer} {text : Except Fault String} {step : RenderM Unit} (name : String)
    (h : ∀ r' : Renderer, r'.tight = r.tight → Agrees r' text step) :
    Agrees r (do return element name "" ("\n" ++ (← text)) ++ "\n") (part name step) := by
  refine Agrees.framed (fun s => ?_) h
  rw [element_eq, String.append_empty]

theorem body_agrees {r : Renderer} {text : Except Fault String} {step : RenderM Unit}
    (rows : List Node) (empty : rows = [] → text = .ok "")
    (h : ∀ r' : Renderer, r'.tight = r.tight → Agrees r' text step) :
    Agrees r (do
      let s ← text
      return if rows.isEmpty then "" else element "tbody" "" ("\n" ++ s) ++ "\n") (body rows step) := by
  cases rows with
  | nil =>
      rw [empty rfl]
      exact .nothing
  | cons row rows => exact part_agrees "tbody" h

/- The induction is on the tree, for every renderer at once: content is captured with an empty output, and
enclosed with one more list or quote open. -/
mutual

theorem visit_agrees (r : Renderer) : (n : Node) → Agrees r (render r.tight n) (visit n)
  | .leaf l info => .given _
  | .branch c cs info => by
      have content (r' : Renderer) (same : r'.tight = r.tight) :
          Agrees r' (renderAll r.tight cs) (visitAll cs) := same ▸ visitAll_agrees r' cs
      have enclosed (tight : Bool) (r' : Renderer) : Agrees r' (renderAll tight cs)
          (within tight (visitAll cs)) := .within fun r' same => same ▸ visitAll_agrees r' cs
      cases c with
      | document => exact visitAll_agrees r cs
      | heading level => exact .captured content fun _ => .ofExcept fun _ => .write _
      | paragraph =>
          refine .captured content fun s => .ofExcept fun attrs => ?_
          change Agrees r (.ok (if r.tight && attrs.isEmpty then s
            else element "p" attrs s ++ "\n")) (do if r.tight && attrs.isEmpty then _ else _)
          split <;> exact .write _
      | blockQuote =>
          exact .ofExcept fun attrs => .framed (element_eq _ attrs) fun r' _ => enclosed false r'
      | list ordered start tight =>
          exact .ofExcept fun attrs => .framed (element_eq _ attrs) fun r' _ => enclosed tight r'
      | listItem mark =>
          refine .ofExcept fun attrs => .framed (fun s => ?_) content
          apply String.ext
          simp [element]
      | tableRow header => exact .nothing
      | tableCell own => exact .nothing
      | emphasis => exact .captured content fun _ => .write _
      | strong => exact .captured content fun _ => .write _
      | strikethrough => exact .captured content fun _ => .write _
      | link url title => exact .captured content fun _ => .ofExcept fun _ => .write _
      | highlight => exact .captured content fun _ => .write _
  | .table header rows al info => by
      have below (r' : Renderer) (same : r'.tight = r.tight) :=
        body_agrees (r := r') rows (by rintro rfl; rfl) fun r'' same' =>
          same ▸ same' ▸ visitRows_agrees r'' "td" al rows
      cases header with
      | none =>
          refine .ofExcept fun attrs => ?_
          have whole := Agrees.framed (element_eq "table" attrs) below
          rw [bind_assoc] at whole
          exact whole
      | some header =>
          have head (r' : Renderer) (same : r'.tight = r.tight) :=
            part_agrees (r := r') "thead" fun r'' same' =>
              same ▸ same' ▸ visitRow_agrees r'' "th" al header
          refine .ofExcept fun attrs => ?_
          have whole := Agrees.framed (element_eq "table" attrs) fun r' same =>
            (head r' same).seq fun r'' same' => below r'' (same'.trans same)
          simp only [bind_assoc, pure_bind, ← String.append_assoc] at whole
          exact whole

theorem visitAll_agrees (r : Renderer) :
    (ns : List Node) → Agrees r (renderAll r.tight ns) (visitAll ns)
  | [] => .nothing
  | n :: ns => (visit_agrees r n).seq fun r' same => same ▸ visitAll_agrees r' ns

theorem visitRow_agrees (r : Renderer) (cell : String) (al : List (Option String)) :
    (row : Node) → Agrees r (renderRow r.tight cell al row) (visitRow cell al row)
  | .leaf l info => rfl
  | .table none rows al info => rfl
  | .table (some header) rows al info => rfl
  | .branch c cs info => by
      cases c with
      | tableRow header =>
          refine .framed (fun s => ?_) fun r' same => same ▸ visitCells_agrees r' cell al cs
          apply String.ext
          simp [element]
      | _ => rfl

theorem visitRows_agrees (r : Renderer) (cell : String) (al : List (Option String)) :
    (rows : List Node) → Agrees r (renderRows r.tight cell al rows) (visitRows cell al rows)
  | [] => .nothing
  | row :: rows => (visitRow_agrees r cell al row).seq fun r' same =>
      same ▸ visitRows_agrees r' cell al rows

theorem visitCells_agrees (r : Renderer) (cell : String) (al : List (Option String)) :
    (cells : List Node) → Agrees r (renderCells r.tight cell al cells) (visitCells cell al cells)
  | [] => by cases al <;> exact .nothing
  | .leaf l info :: cells => rfl
  | .table none rows al info :: cells => rfl
  | .table (some header) rows al info :: cells => rfl
  | .branch c cs info :: cells => by
      cases c with
      | tableCell own =>
          refine .captured (fun r' same => same ▸ visitAll_agrees r' cs) fun s =>
            .ofExcept fun attrs => ?_
          exact (Agrees.write _).seq fun r' same => same ▸ visitCells_agrees r' cell al.tail cells
      | _ => rfl

end

/-- A document renders the same with every renderer. -/
theorem document_eq (r : Renderer) (n : Node) : (r.document n).1 = render false n :=
  (visit_agrees .new n).answer fun _ => rfl

/-- Inline nodes render as they do inside what is open. -/
theorem inline_eq (r : Renderer) (ns : List Node) : (r.inline ns).1 = renderAll r.tight ns :=
  (visitAll_agrees { r with output := "" } ns).answer fun _ => rfl

theorem ofDocument_eq (n : Node) : ofDocument n = render false n := document_eq .new n

theorem ofInline_eq (ns : List Node) : ofInline ns = renderAll false ns := inline_eq .new ns

theorem renderAll_append (tight : Bool) (ns ms : List Node) :
    renderAll tight (ns ++ ms) = do
      let first ← renderAll tight ns
      return first ++ (← renderAll tight ms) := by
  induction ns with
  | nil =>
      change renderAll tight ms = (do return "" ++ (← renderAll tight ms))
      cases renderAll tight ms with
      | error e => rfl
      | ok s => exact congrArg Except.ok (String.empty_append).symm
  | cons n ns ih =>
      rw [List.cons_append, renderAll, renderAll, ih]
      cases render tight n with
      | error e => rfl
      | ok s =>
          cases renderAll tight ns with
          | error e => rfl
          | ok t =>
              cases renderAll tight ms with
              | error e => rfl
              | ok u => exact congrArg Except.ok (String.append_assoc).symm

/-- Inline nodes show what each part of them shows. -/
theorem ofInline_append_eq_ok {ns ms : List Node} {s : String} :
    ofInline (ns ++ ms) = .ok s ↔
      ∃ front back, ofInline ns = .ok front ∧ ofInline ms = .ok back ∧ s = front ++ back := by
  rw [ofInline_eq, ofInline_eq, ofInline_eq, renderAll_append]
  cases renderAll false ns with
  | error e => simp [bind, Except.bind]
  | ok front =>
      cases renderAll false ms with
      | error e => simp [bind, Except.bind]
      | ok back => simp [bind, Except.bind, pure, Except.pure, eq_comm]

theorem ofInline_text (content : String) : ofInline [Node.ofText content] = .ok (escape content) := by
  rw [ofInline_eq]
  exact congrArg Except.ok String.append_empty

end NoteMarkup.Html
