import NoteMarkup.Markdown.Block.Reader
import NoteMarkup.Node.OfToken

/-! Every note has a tree. The reader of tokens fails on a token that lacks what it needs. The tokens
that the items and blocks of a note become lack nothing, so the reader gives a tree for all of them. -/

namespace NoteMarkup.Node

open Markdown

/-! ### Inline items -/

/-- The container that a span becomes. -/
def spanContainer : SpanKind → Container
  | .emphasis => .emphasis
  | .strong => .strong
  | .strikethrough => .strikethrough
  | .mark => .highlight

theorem ofInlineToken_span (k : SpanKind) (ts : List Token) :
    ofInlineToken (Token.ofChildren k.token ts) =
      ofInlineTokens ts >>= fun nodes => .ok (some (.branch (spanContainer k) nodes [])) := by
  cases k <;> rfl

theorem ofInlineToken_link (d : Destination) (ts : List Token) :
    ∃ c, ofInlineToken (linkToken d ts) =
      ofInlineTokens ts >>= fun nodes => .ok (some (.branch c nodes [])) :=
  ⟨_, rfl⟩

theorem ofInlineTokens_cons {t : Token} {ts : List Token} {nodes : List Node}
    (first : t.isText = false → ∃ n, ofInlineToken t = .ok n)
    (later : ofInlineTokens ts = .ok nodes) : ∃ all, ofInlineTokens (t :: ts) = .ok all := by
  rw [ofInlineTokens, later]
  cases text : t.isText with
  | true => exact ⟨_, rfl⟩
  | false =>
      obtain ⟨n, made⟩ := first text
      rw [made]
      exact ⟨_, rfl⟩

mutual

theorem ofInlineToken_token (inLink : Bool) (i : Inline) :
    (i.token inLink).isText = false → ∃ n, ofInlineToken (i.token inLink) = .ok n := by
  intro other
  cases i with
  | text s => cases other
  | softBreak => cases other
  | lineBreak => exact ⟨_, rfl⟩
  | code s => exact ⟨_, rfl⟩
  | markup s => exact ⟨_, rfl⟩
  | span k content =>
      obtain ⟨nodes, made⟩ := ofInlineTokens_tokens (inLink && !k.standsAlone) content
      rw [Inline.token, ofInlineToken_span, made]
      exact ⟨_, rfl⟩
  | address source d s =>
      cases inLink with
      | true => cases other
      | false => exact ⟨_, rfl⟩
  | link d content =>
      obtain ⟨nodes, made⟩ := ofInlineTokens_tokens true content
      obtain ⟨c, run⟩ := ofInlineToken_link d (Inline.tokens true content)
      rw [Inline.token, run, made]
      exact ⟨_, rfl⟩
  | image d content => exact ⟨_, rfl⟩
  | reference r => exact ⟨_, rfl⟩
  | tag v => exact ⟨_, rfl⟩

theorem ofInlineTokens_tokens (inLink : Bool) (is : List Inline) :
    ∃ nodes, ofInlineTokens (Inline.tokens inLink is) = .ok nodes := by
  cases is with
  | nil => exact ⟨[], rfl⟩
  | cons i rest =>
      obtain ⟨nodes, later⟩ := ofInlineTokens_tokens inLink rest
      exact ofInlineTokens_cons (ofInlineToken_token inLink i) later

end

theorem ofInlineTokens_text (set : Setting) (text : List Char) :
    ∃ nodes, ofInlineTokens (textTokens set text) = .ok nodes :=
  ofInlineTokens_tokens false _

/-! ### Tables -/

theorem tableCells_cells (set : Setting) (cells : List Cell) :
    ∃ nodes, tableCells (cells.map (·.token set)) = .ok nodes := by
  induction cells with
  | nil => exact ⟨[], rfl⟩
  | cons c rest ih =>
      obtain ⟨content, made⟩ := ofInlineTokens_text set c.text
      obtain ⟨nodes, later⟩ := ih
      have run : tableCells ((c :: rest).map (·.token set)) =
          ofInlineTokens (textTokens set c.text) >>= fun content =>
            tableCells (rest.map (·.token set)) >>= fun cells =>
              .ok (.branch (.tableCell c.alignment) content [] :: cells) := by
        obtain ⟨text, alignment⟩ := c
        cases alignment <;> rfl
      rw [run, made, later]
      exact ⟨_, rfl⟩

theorem tableRows_rows (set : Setting) (rows : List (List Cell)) :
    ∃ nodes, tableRows (rows.map (rowToken set "table_row")) = .ok nodes := by
  induction rows with
  | nil => exact ⟨[], rfl⟩
  | cons cells rest ih =>
      obtain ⟨nodes, made⟩ := tableCells_cells set cells
      obtain ⟨more, later⟩ := ih
      have run : tableRows ((cells :: rest).map (rowToken set "table_row")) =
          tableCells (cells.map (·.token set)) >>= fun cells =>
            tableRows (rest.map (rowToken set "table_row")) >>= fun rows =>
              .ok (.branch (.tableRow false) cells [] :: rows) := rfl
      rw [run, made, later]
      exact ⟨_, rfl⟩

theorem addTableParts_table (set : Setting) (header : List Cell) (rows : List (List Cell)) :
    ∃ n, addTableParts none [] [] (Block.token set (.table header rows)).children = .ok n := by
  obtain ⟨cells, first⟩ := tableCells_cells set header
  obtain ⟨more, later⟩ := tableRows_rows set rows
  have run : addTableParts none [] [] (Block.token set (.table header rows)).children =
      tableCells (header.map (·.token set)) >>= fun cells =>
        tableRows (rows.map (rowToken set "table_row")) >>= fun more =>
          .ok (.table (some (.branch (.tableRow true) cells [])) ([] ++ more)
            (cells.map cellAlignment?) []) := rfl
  rw [run, first, later]
  exact ⟨_, rfl⟩

/-! ### Blocks -/

theorem codeBlock_code (source : List Char) (info : Option (List Char)) :
    ∃ n, codeBlock (codeToken source info) = .ok n := by
  cases info with
  | none => exact ⟨_, rfl⟩
  | some words => exact ⟨_, rfl⟩

theorem ofBlockToken_paragraph (set : Setting) (text : List Char) :
    ∃ n, ofBlockToken (paragraphToken set text) = .ok n := by
  obtain ⟨content, made⟩ := ofInlineTokens_text set text
  have run : ofBlockToken (paragraphToken set text) =
      ofInlineTokens (textTokens set text) >>= fun content => .ok (some (.paragraph content)) := rfl
  rw [run, made]
  exact ⟨_, rfl⟩

theorem ofBlockTokens_cons {t : Token} {ts : List Token} {n : Option Node} {nodes : List Node}
    (first : ofBlockToken t = .ok n) (later : ofBlockTokens ts = .ok nodes) :
    ofBlockTokens (t :: ts) = .ok (n.toList ++ nodes) := by
  rw [ofBlockTokens, first, later]
  rfl

theorem listItems_cons {t : Token} {ts : List Token} {content items : List Node}
    {mark : Option TaskMark} (made : ofBlockTokens t.children = .ok content)
    (marked : taskMark? t = .ok mark) (later : listItems ts = .ok items) :
    listItems (t :: ts) = .ok (.branch (.listItem mark) content [] :: items) := by
  obtain ⟨kind, raw, attrs, tight, children⟩ := t
  rw [listItems, made, marked, later]
  rfl

/-- The first block of a task is a paragraph, which keeps its place without the box. -/
theorem ofBlockToken_task {set : Setting} {b : Block} {checked : Bool} {first : Token}
    (h : task? set b = some (checked, first)) : ∃ n, ofBlockToken first = .ok n := by
  cases b with
  | paragraph text =>
      obtain ⟨⟨box, rest⟩, read, same⟩ := Option.map_eq_some_iff.mp h
      obtain ⟨rfl, rfl⟩ := Prod.mk.inj same
      exact ofBlockToken_paragraph set rest
  | _ => cases h

mutual

theorem ofBlockToken_token (set : Setting) (b : Block) :
    ∃ n, ofBlockToken (b.token set) = .ok n := by
  cases b with
  | blank => exact ⟨_, rfl⟩
  | paragraph text => exact ofBlockToken_paragraph set text
  | heading level text =>
      obtain ⟨content, made⟩ := ofInlineTokens_text set text
      have run : ofBlockToken (headingToken set level text) =
          ofInlineTokens (textTokens set text) >>= fun content =>
            .ok (some (.branch (.heading (headingLevel (headingToken set level text))) content [])) :=
        rfl
      rw [Block.token, run, made]
      exact ⟨_, rfl⟩
  | code source info =>
      obtain ⟨n, made⟩ := codeBlock_code source info
      have run : ofBlockToken (codeToken source info) =
          codeBlock (codeToken source info) >>= fun n => .ok (some n) := rfl
      rw [Block.token, run, made]
      exact ⟨_, rfl⟩
  | thematicBreak => exact ⟨_, rfl⟩
  | markup source => exact ⟨_, rfl⟩
  | quote content =>
      obtain ⟨nodes, made⟩ := ofBlockTokens_tokens set content
      have run : ofBlockToken (Token.ofChildren "block_quote" (Block.tokens set content)) =
          ofBlockTokens (Block.tokens set content) >>= fun nodes =>
            .ok (some (.branch .blockQuote nodes [])) := rfl
      rw [Block.token, run, made]
      exact ⟨_, rfl⟩
  | list start ordered tight items =>
      obtain ⟨nodes, made⟩ := listItems_tokens set items
      have run : ∃ c, ofBlockToken (Block.token set (.list start ordered tight items)) =
          listItems (Block.itemTokens set items) >>= fun nodes => .ok (some (.branch c nodes [])) :=
        ⟨_, rfl⟩
      obtain ⟨c, run⟩ := run
      rw [run, made]
      exact ⟨_, rfl⟩
  | table header rows =>
      obtain ⟨n, made⟩ := addTableParts_table set header rows
      have run : ofBlockToken (Block.token set (.table header rows)) =
          addTableParts none [] [] (Block.token set (.table header rows)).children >>= fun n =>
            .ok (some n) := rfl
      rw [run, made]
      exact ⟨_, rfl⟩

theorem ofBlockTokens_tokens (set : Setting) (bs : List Block) :
    ∃ nodes, ofBlockTokens (Block.tokens set bs) = .ok nodes := by
  cases bs with
  | nil => exact ⟨[], rfl⟩
  | cons b rest =>
      obtain ⟨n, made⟩ := ofBlockToken_token set b
      obtain ⟨nodes, later⟩ := ofBlockTokens_tokens set rest
      exact ⟨_, ofBlockTokens_cons made later⟩

theorem listItem_token (set : Setting) (item : List Block) :
    (∃ nodes, ofBlockTokens (Block.itemToken set item).children = .ok nodes) ∧
      ∃ mark, taskMark? (Block.itemToken set item) = .ok mark := by
  cases item with
  | nil => exact ⟨⟨[], rfl⟩, none, rfl⟩
  | cons b rest =>
      obtain ⟨nodes, later⟩ := ofBlockTokens_tokens set rest
      rw [Block.itemToken]
      cases task : task? set b with
      | none =>
          obtain ⟨n, made⟩ := ofBlockToken_token set b
          exact ⟨⟨_, ofBlockTokens_cons made later⟩, none, rfl⟩
      | some p =>
          obtain ⟨checked, first⟩ := p
          obtain ⟨n, made⟩ := ofBlockToken_task task
          exact ⟨⟨_, ofBlockTokens_cons made later⟩, _, rfl⟩

theorem listItems_tokens (set : Setting) (items : List (List Block)) :
    ∃ nodes, listItems (Block.itemTokens set items) = .ok nodes := by
  cases items with
  | nil => exact ⟨[], rfl⟩
  | cons item rest =>
      obtain ⟨⟨content, made⟩, mark, marked⟩ := listItem_token set item
      obtain ⟨nodes, later⟩ := listItems_tokens set rest
      exact ⟨_, listItems_cons made marked later⟩

end

/-- The tokens of every text describe a tree. -/
theorem ofBlockTokens_tokensOf (dialect : Dialect) (text : List Char) :
    ∃ nodes, ofBlockTokens (tokensOf dialect text) = .ok nodes :=
  ofBlockTokens_tokens _ _

end NoteMarkup.Node
