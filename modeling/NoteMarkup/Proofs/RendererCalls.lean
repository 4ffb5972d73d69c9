import Mathlib.Data.List.Forall2
import NoteMarkup.Proofs.RenderedText
import NoteMarkup.Proofs.Tree

/-! Calls to one renderer, one after the other. A call may fail anywhere in a tree, and what it has
written and opened till then stays. The next call starts with an empty output again, and one for a
document with nothing open. One for inline nodes starts inside what is open. Of all nodes only a
paragraph is shown according to that, unless it stands in a list or a quote of the call's own. So
whether a call fails, and the markup that it gives, do not depend on the calls before it.

A paragraph is no inline node. One that is handed to a call for inline nodes all the same loses its
element where a failed call has left a tight list open. -/

namespace NoteMarkup

/-- Whether what is around a container does not reach its content: it starts a list or a quote of its
own, or it is shown as a part of a table alone. -/
def Container.shields : Container → Bool
  | .blockQuote | .list _ _ _ | .tableRow _ | .tableCell _ => true
  | _ => false

/-- A paragraph in the node is shown according to the list or quote around the node. -/
inductive Node.LooksOut : Node → Prop
  | paragraph {cs : List Node} {info : Record} : LooksOut (.branch .paragraph cs info)
  | content {c : Container} {cs : List Node} {info : Record} {n : Node} (reached : c.shields = false)
      (member : n ∈ cs) (below : LooksOut n) : LooksOut (.branch c cs info)
  | cell {header : Option Node} {rows : List Node} {al : List (Option String)} {info : Record}
      {row cell n : Node} (ofTable : row ∈ header.toList ++ rows) (ofRow : cell ∈ row.children)
      (member : n ∈ cell.children) (below : LooksOut n) : LooksOut (.table header rows al info)

namespace Html

/-- Two renderings fail with the same fault, or both give a text, which is the same on a condition. -/
inductive Alike (same : Prop) : Except Fault String → Except Fault String → Prop
  | failed (f : Fault) : Alike same (.error f) (.error f)
  | shown {s t : String} (eq : same → s = t) : Alike same (.ok s) (.ok t)

namespace Alike

variable {same same' : Prop} {a b : Except Fault String}

theorem refl (same : Prop) : (a : Except Fault String) → Alike same a a
  | .error f => .failed f
  | .ok _ => .shown fun _ => rfl

theorem mono (h : Alike same a b) (weaker : same' → same) : Alike same' a b := by
  cases h with
  | failed f => exact .failed f
  | shown eq => exact .shown fun holds => eq (weaker holds)

theorem bind {next next' : String → Except Fault String} (h : Alike same a b)
    (each : ∀ s t, (same → s = t) → Alike same (next s) (next' t)) :
    Alike same (a >>= next) (b >>= next') := by
  cases h with
  | failed f => exact .failed f
  | shown eq => exact each _ _ eq

theorem after {α : Type} {next next' : α → Except Fault String} (first : Except Fault α)
    (each : ∀ x, Alike same (next x) (next' x)) : Alike same (first >>= next) (first >>= next') := by
  cases first with
  | error f => exact .failed f
  | ok x => exact each x

theorem eq (h : Alike same a b) (holds : same) : a = b := by
  cases h with
  | failed f => rfl
  | shown eq => exact congrArg Except.ok (eq holds)

/-- A text that is made from one that is alike. -/
theorem map (shown : String → String) (h : Alike same a b) :
    Alike same (do return shown (← a)) (do return shown (← b)) :=
  h.bind fun _ _ eq => .shown fun holds => congrArg shown (eq holds)

/-- Two texts one after the other. -/
theorem append {c d : Except Fault String} (h : Alike same a b) (later : Alike same c d) :
    Alike same (do return (← a) ++ (← c)) (do return (← b) ++ (← d)) :=
  h.bind fun _ _ eq => later.bind fun _ _ eq' => .shown fun holds => eq holds ▸ eq' holds ▸ rfl

/-- An element whose attributes come after its content. -/
theorem attributed {attrs : Except Fault String} (shown : String → String → String)
    (h : Alike same a b) :
    Alike same (do let s ← a; let as ← attrs; return shown as s)
      (do let s ← b; let as ← attrs; return shown as s) :=
  h.bind fun _ _ eq => .after attrs fun as => .shown fun holds => congrArg (shown as) (eq holds)

end Alike

mutual

theorem render_alike (tight tight' : Bool) :
    (n : Node) → Alike (¬ n.LooksOut) (render tight n) (render tight' n)
  | .leaf l info => .refl _ _
  | .branch c cs info => by
      have content (reached : c.shields = false) : Alike (¬ (Node.branch c cs info).LooksOut)
          (renderAll tight cs) (renderAll tight' cs) :=
        (renderAll_alike tight tight' cs).mono fun hidden _ member below =>
          hidden (.content reached member below)
      cases c with
      | document => exact content rfl
      | heading level => exact (content rfl).attributed fun attrs s => element _ attrs s ++ "\n"
      | paragraph =>
          exact (content rfl).bind fun _ _ _ => .after _ fun _ =>
            .shown fun hidden => absurd .paragraph hidden
      | blockQuote => exact .refl _ _
      | list ordered start listTight => exact .refl _ _
      | listItem mark => exact .after _ fun attrs => (content rfl).map _
      | tableRow header => exact .refl _ _
      | tableCell own => exact .refl _ _
      | emphasis => exact (content rfl).map _
      | strong => exact (content rfl).map _
      | strikethrough => exact (content rfl).map _
      | link url title => exact (content rfl).attributed fun attrs s => element "a" attrs s
      | highlight => exact (content rfl).map fun s => "==" ++ s ++ "=="
  | .table header rows al info => by
      have cells (hidden : ¬ (Node.table header rows al info).LooksOut) :
          ∀ row ∈ header.toList ++ rows, ∀ c ∈ row.children, ∀ n ∈ c.children, ¬ n.LooksOut :=
        fun _ ofTable _ ofRow _ member below => hidden (.cell ofTable ofRow member below)
      have body := (renderRows_alike tight tight' "td" al rows).mono fun hidden row ofBody =>
        cells hidden row (List.mem_append_right _ ofBody)
      cases header with
      | none => exact .after _ fun attrs => body.map _
      | some header =>
          have head := (renderRow_alike tight tight' "th" al header).mono fun hidden =>
            cells hidden header List.mem_cons_self
          refine .after _ fun attrs => head.bind fun s t eq => body.bind fun s' t' eq' => ?_
          exact .shown fun hidden => eq hidden ▸ eq' hidden ▸ rfl

theorem renderAll_alike (tight tight' : Bool) :
    (ns : List Node) → Alike (∀ n ∈ ns, ¬ n.LooksOut) (renderAll tight ns) (renderAll tight' ns)
  | [] => .refl _ _
  | n :: ns =>
      ((render_alike tight tight' n).mono fun h => h n List.mem_cons_self).append
        ((renderAll_alike tight tight' ns).mono fun h m hm => h m (List.mem_cons_of_mem n hm))

theorem renderRow_alike (tight tight' : Bool) (cell : String) (al : List (Option String)) :
    (row : Node) → Alike (∀ c ∈ row.children, ∀ n ∈ c.children, ¬ n.LooksOut)
      (renderRow tight cell al row) (renderRow tight' cell al row)
  | .leaf l info => .refl _ _
  | .table none rows al info => .refl _ _
  | .table (some header) rows al info => .refl _ _
  | .branch c cs info => by
      cases c with
      | tableRow header =>
          exact (renderCells_alike tight tight' cell al cs).map fun s => element "tr" "" s ++ "\n"
      | _ => exact .refl _ _

theorem renderRows_alike (tight tight' : Bool) (cell : String) (al : List (Option String)) :
    (rows : List Node) →
      Alike (∀ row ∈ rows, ∀ c ∈ row.children, ∀ n ∈ c.children, ¬ n.LooksOut)
        (renderRows tight cell al rows) (renderRows tight' cell al rows)
  | [] => .refl _ _
  | row :: rows =>
      ((renderRow_alike tight tight' cell al row).mono fun h => h row List.mem_cons_self).append
        ((renderRows_alike tight tight' cell al rows).mono fun h r hr =>
          h r (List.mem_cons_of_mem row hr))

theorem renderCells_alike (tight tight' : Bool) (cell : String) (al : List (Option String)) :
    (cells : List Node) → Alike (∀ c ∈ cells, ∀ n ∈ c.children, ¬ n.LooksOut)
      (renderCells tight cell al cells) (renderCells tight' cell al cells)
  | [] => by cases al <;> exact .refl _ _
  | .leaf l info :: cells => .refl _ _
  | .table none rows al info :: cells => .refl _ _
  | .table (some header) rows al info :: cells => .refl _ _
  | .branch c cs info :: cells => by
      cases c with
      | tableCell own =>
          have inner := renderAll_alike tight tight' cs
          have later := renderCells_alike tight tight' cell al.tail cells
          refine (inner.mono fun hidden => hidden _ List.mem_cons_self).bind fun s t eq =>
            .after _ fun attrs => (later.mono fun hidden c hc => hidden c (.tail _ hc)).bind
              fun s' t' eq' => .shown fun hidden => ?_
          exact eq hidden ▸ eq' hidden ▸ rfl
      | _ => exact .refl _ _

end

/-- A call to a renderer. -/
inductive Call where
  | document (n : Node)
  | inline (ns : List Node)

namespace Call

/-- The outcome of a call and the renderer after it. -/
def run (r : Renderer) : Call → Except Fault String × Renderer
  | .document n => r.document n
  | .inline ns => r.inline ns

/-- The outcome of the call to a new renderer. -/
def alone (c : Call) : Except Fault String := (c.run .new).1

end Call

/-- The outcomes of calls, each to the renderer that the calls before it leave. -/
def Renderer.answers (r : Renderer) : List Call → List (Except Fault String)
  | [] => []
  | c :: cs => (c.run r).1 :: (c.run r).2.answers cs

end Html

end NoteMarkup
