import Mathlib.Data.List.SplitBy
import NoteMarkup.Proofs.TokenTree
import NoteMarkup.Proofs.Tree

/-! The nodes of inline tokens. The tokens of a text that stand together, tokens of unknown kinds aside, are
one run and become one text node; every other token of a known kind becomes a node of its own. So the
nodes are those of the runs, in order, and no two texts stand side by side, inside of a container no less
than outside. -/

namespace NoteMarkup

namespace Markdown.Token

/-- To prove a property of every token, prove it of a token from that of its children. -/
@[elab_as_elim]
theorem induct {P : Token → Prop} (step : ∀ t, (∀ u ∈ t.children, P u) → P t) (t : Token) : P t := by
  refine @Token.rec P (fun ts => ∀ t ∈ ts, P t) (fun _ _ _ _ children ih => step _ ih) ?_ ?_ t
  · intro t member
    cases member
  · intro t ts ht hts u member
    rcases List.mem_cons.mp member with rfl | later
    · exact ht
    · exact hts u later

end Markdown.Token

namespace Node

open Markdown (Token)

/-- The kinds of inline tokens that are no text. -/
def inlineKinds : List String :=
  ["strong", "emphasis", "strikethrough", "mark", "codespan", "link", "image", "linebreak",
    "inline_html", "wikilink", "obsidian_tag"]

/-- Whether a token is of a known kind. -/
def isKnown (t : Token) : Bool := t.isText || inlineKinds.contains t.kind

/-- Whether a text goes on in the next token. -/
def sameRun (a b : Token) : Bool := a.isText && b.isText

/-- The known tokens in runs: texts and soft breaks that stand together are one run, and every other
token is a run of its own. -/
def runs (ts : List Token) : List (List Token) := (ts.filter isKnown).splitBy sameRun

/-- The container that a token stands for. -/
inductive Encloses (t : Token) : Container → Prop where
  | strong (kind : t.kind = "strong") : Encloses t .strong
  | emphasis (kind : t.kind = "emphasis") : Encloses t .emphasis
  | strikethrough (kind : t.kind = "strikethrough") : Encloses t .strikethrough
  | highlight (kind : t.kind = "mark") : Encloses t .highlight
  | link {r : Record} (kind : t.kind = "link") (attrs : tokenAttrs t = .ok r) :
      Encloses t (.link ((textAttr? r "url").getD "") (textAttr? r "title"))

/-- The leaf that a token stands for. -/
inductive Bears (t : Token) : Leaf → Prop where
  | code (kind : t.kind = "codespan") : Bears t (.code t.raw)
  | image {r : Record} (kind : t.kind = "image") (attrs : tokenAttrs t = .ok r) :
      Bears t (.image ((textAttr? r "url").getD "") (alternativeText t.children) (textAttr? r "title"))
  | lineBreak (kind : t.kind = "linebreak") : Bears t .lineBreak
  | markup (kind : t.kind = "inline_html") : Bears t (.htmlInline t.raw)
  | reference {r : Record} {ref : Reference} (kind : t.kind = "wikilink") (attrs : neededAttrs t = .ok r)
      (read : referenceOfAttrs r = .ok ref) : Bears t (.wikiLink ref)
  | tag {r : Record} {value : String} (kind : t.kind = "obsidian_tag") (attrs : neededAttrs t = .ok r)
      (read : neededText r "value" = .ok value) : Bears t (.tag value)

/-- The node of a run: the text of its tokens together, or what its only token stands for. -/
inductive Shows : List Token → Node → Prop where
  | text {ts : List Token} (texts : ∀ t ∈ ts, t.isText = true) :
      Shows ts (.ofText (String.join (ts.map Token.runText)))
  | container {t : Token} {c : Container} {nodes : List Node} (kind : Encloses t c)
      (inside : List.Forall₂ Shows (runs t.children) nodes) : Shows [t] (.branch c nodes [])
  | leaf {t : Token} {l : Leaf} (kind : Bears t l) : Shows [t] (.leaf l [])

/-- No two texts stand side by side. -/
def Apart (nodes : List Node) : Prop := nodes.IsChain fun n m => ¬(n.kind = .text ∧ m.kind = .text)

variable {t u : Token} {ts g : List Token} {gs : List (List Token)} {n : Node} {nodes : List Node}
  {c : Container} {l : Leaf}

/-! ### One token -/

theorem Encloses.isText (h : Encloses t c) : t.isText = false := by
  cases h <;> simp [Token.isText, *]

theorem Bears.isText (h : Bears t l) : t.isText = false := by
  cases h <;> simp [Token.isText, *]

theorem ofInlineToken_container (h : Encloses t c) :
    ofInlineToken t = ofInlineTokens t.children >>= fun nodes => .ok (some (.branch c nodes [])) := by
  obtain ⟨kind, raw, attrs, tight, children⟩ := t
  cases h with
  | strong kind | emphasis kind | strikethrough kind | highlight kind =>
      cases kind
      rfl
  | link kind given =>
      cases kind
      change tokenAttrs ⟨"link", raw, attrs, tight, children⟩ >>= _ = _
      rw [given]
      rfl

theorem ofInlineToken_leaf (h : Bears t l) : ofInlineToken t = .ok (some (.leaf l [])) := by
  obtain ⟨kind, raw, attrs, tight, children⟩ := t
  cases h with
  | code kind | lineBreak kind | markup kind =>
      cases kind
      rfl
  | image kind given =>
      cases kind
      change tokenAttrs ⟨"image", raw, attrs, tight, children⟩ >>= _ = _
      rw [given]
      rfl
  | reference kind given read =>
      cases kind
      change neededAttrs ⟨"wikilink", raw, attrs, tight, children⟩ >>= _ = _
      rw [given]
      change referenceOfAttrs _ >>= _ = _
      rw [read]
      rfl
  | tag kind given read =>
      cases kind
      change neededAttrs ⟨"obsidian_tag", raw, attrs, tight, children⟩ >>= _ = _
      rw [given]
      change neededText _ "value" >>= _ = _
      rw [read]
      rfl

/-- A token of an unknown kind is left out, whatever it holds. -/
theorem ofInlineToken_unknown (h : isKnown t = false) : ofInlineToken t = .ok none := by
  obtain ⟨kind, raw, attrs, tight, children⟩ := t
  simp only [isKnown, Bool.or_eq_false_iff, inlineKinds, List.contains_eq_mem, decide_eq_false_iff_not,
    List.mem_cons, List.not_mem_nil, or_false, not_or] at h
  simp only [ofInlineToken]
  split
  case h_12 => rfl
  all_goals simp at h

/-- A token of a known kind stands for something, if it has what it needs. -/
theorem encloses_or_bears {m : Option Node} (known : isKnown t = true) (other : t.isText = false)
    (made : ofInlineToken t = .ok m) : (∃ c, Encloses t c) ∨ ∃ l, Bears t l := by
  obtain ⟨kind, raw, attrs, tight, children⟩ := t
  rw [isKnown, other, Bool.false_or, List.contains_iff_mem] at known
  simp only [inlineKinds, List.mem_cons, List.not_mem_nil, or_false] at known
  rcases known with rfl | rfl | rfl | rfl | rfl | rfl | rfl | rfl | rfl | rfl | rfl
  · exact .inl ⟨_, .strong rfl⟩
  · exact .inl ⟨_, .emphasis rfl⟩
  · exact .inl ⟨_, .strikethrough rfl⟩
  · exact .inl ⟨_, .highlight rfl⟩
  · exact .inr ⟨_, .code rfl⟩
  · obtain ⟨r, given, -⟩ := bind_eq_ok.mp made
    exact .inl ⟨_, .link rfl given⟩
  · obtain ⟨r, given, -⟩ := bind_eq_ok.mp made
    exact .inr ⟨_, .image rfl given⟩
  · exact .inr ⟨_, .lineBreak rfl⟩
  · exact .inr ⟨_, .markup rfl⟩
  · obtain ⟨r, given, read⟩ := bind_eq_ok.mp made
    obtain ⟨ref, read, -⟩ := bind_eq_ok.mp read
    exact .inr ⟨_, .reference rfl given read⟩
  · obtain ⟨r, given, read⟩ := bind_eq_ok.mp made
    obtain ⟨value, read, -⟩ := bind_eq_ok.mp read
    exact .inr ⟨_, .tag rfl given read⟩

theorem exists_node_of_known {m : Option Node} (known : isKnown t = true) (other : t.isText = false)
    (made : ofInlineToken t = .ok m) : ∃ n, m = some n := by
  rcases encloses_or_bears known other made with ⟨c, kind⟩ | ⟨l, kind⟩
  · rw [ofInlineToken_container kind] at made
    obtain ⟨nodes, -, same⟩ := bind_eq_ok.mp made
    exact ⟨_, (Except.ok.inj same).symm⟩
  · rw [ofInlineToken_leaf kind] at made
    exact ⟨_, (Except.ok.inj made).symm⟩

/-! ### Runs -/

theorem isKnown_of_isText (h : t.isText = true) : isKnown t = true := by
  rw [isKnown, h, Bool.true_or]

theorem runs_unknown (h : isKnown t = false) (ts : List Token) : runs (t :: ts) = runs ts := by
  rw [runs, List.filter_cons_of_neg (by simp [h]), runs]

/-- A token that cannot go on with what follows is a run of its own. -/
theorem runs_alone (known : isKnown t = true)
    (next : ∀ u ∈ (ts.filter isKnown).head?, sameRun t u = false) :
    runs (t :: ts) = [t] :: runs ts := by
  have split := List.splitBy_append (r := sameRun) (l := [t]) (m := ts.filter isKnown)
    (by simpa using next)
  rw [runs, List.filter_cons_of_pos known]
  exact split

theorem runs_other (known : isKnown t = true) (other : t.isText = false) (ts : List Token) :
    runs (t :: ts) = [t] :: runs ts :=
  runs_alone known fun u _ => by rw [sameRun, other, Bool.false_and]

theorem filter_isKnown (h : runs ts = g :: gs) : ts.filter isKnown = g ++ gs.flatten := by
  have whole := List.flatten_splitBy sameRun (ts.filter isKnown)
  rw [← whole, ← runs, h, List.flatten_cons]

theorem ne_nil_of_mem_runs (h : g ∈ runs ts) : g ≠ [] := List.ne_nil_of_mem_splitBy h

/-- A text before a run of texts joins the run. -/
theorem runs_text (text : t.isText = true) (next : u.isText = true) (h : runs ts = (u :: g) :: gs) :
    runs (t :: ts) = (t :: u :: g) :: gs := by
  obtain ⟨whole, some, chains, stops⟩ := List.splitBy_eq_iff.mp h
  rw [runs, List.filter_cons_of_pos (isKnown_of_isText text)]
  refine List.splitBy_eq_iff.mpr ⟨?_, ?_, ?_, ?_⟩
  · rw [whole]
    rfl
  · simpa using some
  · intro run member
    rcases List.mem_cons.mp member with rfl | later
    · refine List.isChain_cons_cons.mpr ⟨by rw [sameRun, text, next]; rfl, chains _ List.mem_cons_self⟩
    · exact chains _ (List.mem_cons_of_mem _ later)
  · cases gs with
    | nil => exact List.isChain_singleton _
    | cons g' gs =>
        obtain ⟨⟨hg, hg', stop⟩, rest⟩ := List.isChain_cons_cons.mp stops
        refine List.isChain_cons_cons.mpr ⟨⟨by simp, hg', ?_⟩, rest⟩
        rwa [List.getLast_cons hg]

/-! ### One level -/

theorem Shows.text_of_isText (h : Shows (u :: g) n) (text : u.isText = true) :
    (∀ t ∈ u :: g, t.isText = true) ∧ n = .ofText (String.join ((u :: g).map Token.runText)) := by
  cases h with
  | text texts => exact ⟨texts, rfl⟩
  | container kind inside => rw [kind.isText] at text; cases text
  | leaf kind => rw [kind.isText] at text; cases text

theorem Shows.kind_ne (h : Shows (u :: g) n) (other : u.isText = false) : n.kind ≠ .text := by
  cases h with
  | text texts =>
      rw [texts u List.mem_cons_self] at other
      cases other
  | container kind inside => cases kind <;> nofun
  | leaf kind => cases kind <;> nofun

theorem joinText_ofText (s s' : String) (nodes : List Node) :
    joinText s (.ofText s' :: nodes) = .ofText (s ++ s') :: nodes := rfl

theorem joinText_of_kind_ne (s : String) (h : ∀ n ∈ nodes.head?, n.kind ≠ .text) :
    joinText s nodes = .ofText s :: nodes := by
  unfold joinText
  split
  · exact absurd rfl (h _ rfl)
  · rfl

theorem shows_single_text (text : t.isText = true) : Shows [t] n ↔ n = .ofText t.runText := by
  have join : String.join ([t].map Token.runText) = t.runText := by simp
  constructor
  · intro h
    rw [(h.text_of_isText text).2, join]
  · rintro rfl
    rw [← join]
    exact .text (by simpa using text)

/-- If no text comes next, no text node does. -/
theorem head_kind_ne (shown : List.Forall₂ Shows (runs ts) nodes)
    (next : ∀ u ∈ (ts.filter isKnown).head?, u.isText = false) : ∀ n ∈ nodes.head?, n.kind ≠ .text := by
  cases inRuns : runs ts with
  | nil =>
      rw [inRuns] at shown
      cases shown
      nofun
  | cons g gs =>
      rw [inRuns] at shown
      obtain ⟨u, g, rfl⟩ := List.exists_cons_of_ne_nil (ne_nil_of_mem_runs (inRuns ▸ List.mem_cons_self))
      obtain ⟨n, later, first, -, rfl⟩ := List.forall₂_cons_left_iff.mp shown
      rintro _ ⟨⟩
      exact first.kind_ne (next u (by rw [filter_isKnown inRuns]; rfl))

theorem shows_text_alone (text : t.isText = true)
    (next : ∀ u ∈ (ts.filter isKnown).head?, u.isText = false) :
    List.Forall₂ Shows (runs (t :: ts)) nodes ↔
      ∃ later, List.Forall₂ Shows (runs ts) later ∧ joinText t.runText later = nodes := by
  rw [runs_alone (isKnown_of_isText text) fun u first => by rw [sameRun, next u first, Bool.and_false],
    List.forall₂_cons_left_iff]
  constructor
  · rintro ⟨n, later, first, rest, rfl⟩
    refine ⟨later, rest, ?_⟩
    rw [joinText_of_kind_ne _ (head_kind_ne rest next), (shows_single_text text).mp first]
  · rintro ⟨later, rest, rfl⟩
    exact ⟨_, later, (shows_single_text text).mpr rfl, rest,
      joinText_of_kind_ne _ (head_kind_ne rest next)⟩

theorem shows_text_joined (text : t.isText = true) (next : u.isText = true)
    (inRuns : runs ts = (u :: g) :: gs) :
    List.Forall₂ Shows (runs (t :: ts)) nodes ↔
      ∃ later, List.Forall₂ Shows (runs ts) later ∧ joinText t.runText later = nodes := by
  have join : String.join ((t :: u :: g).map Token.runText) =
      t.runText ++ String.join ((u :: g).map Token.runText) := by
    rw [List.map_cons, String.join_cons]
  rw [runs_text text next inRuns, inRuns]
  simp only [List.forall₂_cons_left_iff]
  constructor
  · rintro ⟨n, rest, first, shown, rfl⟩
    obtain ⟨texts, rfl⟩ := first.text_of_isText text
    refine ⟨_, ⟨_, rest, .text (List.forall_mem_cons.mp texts).2, shown, rfl⟩, ?_⟩
    rw [joinText_ofText, join]
  · rintro ⟨_, ⟨n, rest, first, shown, rfl⟩, rfl⟩
    obtain ⟨texts, rfl⟩ := first.text_of_isText next
    refine ⟨_, rest, .text (List.forall_mem_cons.mpr ⟨text, texts⟩), shown, ?_⟩
    rw [joinText_ofText, join]

theorem shows_text (text : t.isText = true) :
    List.Forall₂ Shows (runs (t :: ts)) nodes ↔
      ∃ later, List.Forall₂ Shows (runs ts) later ∧ joinText t.runText later = nodes := by
  cases first : (ts.filter isKnown).head? with
  | none => exact shows_text_alone text fun u h => by rw [first] at h; cases h
  | some u =>
      cases next : u.isText with
      | false =>
          refine shows_text_alone text fun v h => ?_
          rw [first] at h
          cases h
          exact next
      | true =>
          cases inRuns : runs ts with
          | nil =>
              rw [List.splitBy_eq_nil.mp inRuns] at first
              cases first
          | cons g gs =>
              obtain ⟨v, g, rfl⟩ :=
                List.exists_cons_of_ne_nil (ne_nil_of_mem_runs (inRuns ▸ List.mem_cons_self))
              rw [filter_isKnown inRuns] at first
              cases first
              rw [← inRuns]
              exact shows_text_joined text next inRuns

/-- At one level, the nodes of the tokens are those of the runs. -/
theorem ofInlineTokens_iff
    (each : ∀ t ∈ ts, t.isText = false → ∀ n, ofInlineToken t = .ok (some n) ↔ Shows [t] n)
    (nodes : List Node) : ofInlineTokens ts = .ok nodes ↔ List.Forall₂ Shows (runs ts) nodes := by
  induction ts generalizing nodes with
  | nil =>
      rw [ofInlineTokens, runs, List.filter_nil, List.splitBy_nil, List.forall₂_nil_left_iff]
      exact ⟨fun h => (Except.ok.inj h).symm, fun h => congrArg Except.ok h.symm⟩
  | cons t ts ih =>
      obtain ⟨here, below⟩ := List.forall_mem_cons.mp each
      rw [ofInlineTokens]
      cases text : t.isText with
      | true =>
          rw [if_pos rfl, shows_text text, bind_eq_ok]
          simp only [ih below]
          exact exists_congr fun later => and_congr_right fun _ => ⟨Except.ok.inj, congrArg Except.ok⟩
      | false =>
          rw [if_neg Bool.false_ne_true, bind_eq_ok]
          cases known : isKnown t with
          | false =>
              rw [ofInlineToken_unknown known, runs_unknown known, ← ih below]
              constructor
              · rintro ⟨_, ⟨⟩, made⟩
                obtain ⟨later, rest, same⟩ := bind_eq_ok.mp made
                exact rest.trans same
              · intro made
                exact ⟨none, rfl, bind_eq_ok.mpr ⟨nodes, made, rfl⟩⟩
          | true =>
              rw [runs_other known text, List.forall₂_cons_left_iff]
              constructor
              · rintro ⟨m, first, made⟩
                obtain ⟨n, rfl⟩ := exists_node_of_known known text first
                obtain ⟨later, rest, same⟩ := bind_eq_ok.mp made
                exact ⟨n, later, (here text n).mp first, (ih below later).mp rest,
                  (Except.ok.inj same).symm⟩
              · rintro ⟨n, later, first, rest, rfl⟩
                exact ⟨some n, (here text n).mpr first,
                  bind_eq_ok.mpr ⟨later, (ih below later).mpr rest, rfl⟩⟩

theorem ofInlineToken_iff (t : Token) (other : t.isText = false) (n : Node) :
    ofInlineToken t = .ok (some n) ↔ Shows [t] n := by
  induction t using Token.induct generalizing n with
  | step t ih =>
      have inside := ofInlineTokens_iff ih
      constructor
      · intro made
        have known : isKnown t = true := by
          by_contra unknown
          rw [ofInlineToken_unknown (by simpa using unknown)] at made
          cases made
        rcases encloses_or_bears known other made with ⟨c, kind⟩ | ⟨l, kind⟩
        · rw [ofInlineToken_container kind] at made
          obtain ⟨nodes, content, same⟩ := bind_eq_ok.mp made
          obtain rfl := Option.some.inj (Except.ok.inj same)
          exact .container kind ((inside nodes).mp content)
        · rw [ofInlineToken_leaf kind] at made
          obtain rfl := Option.some.inj (Except.ok.inj made)
          exact .leaf kind
      · intro shown
        cases shown with
        | text texts =>
            rw [texts t List.mem_cons_self] at other
            cases other
        | container kind content =>
            rw [ofInlineToken_container kind, (inside _).mpr content]
            rfl
        | leaf kind => exact ofInlineToken_leaf kind

/-! ### Neighbours -/

theorem Shows.texts_of_kind (h : Shows g n) (text : n.kind = .text) : ∀ t ∈ g, t.isText = true := by
  cases h with
  | text texts => exact texts
  | container kind inside => cases kind <;> cases text
  | leaf kind => cases kind <;> cases text

/-- Two runs of texts would be one, so their nodes do not stand side by side. -/
theorem apart_of_shows {gs : List (List Token)} (shown : List.Forall₂ Shows gs nodes)
    (stops : gs.IsChain fun a b => ∃ ha hb, sameRun (a.getLast ha) (b.head hb) = false) :
    Apart nodes := by
  induction shown with
  | nil => exact List.isChain_nil
  | cons first rest ih =>
      cases rest with
      | nil => exact List.isChain_singleton _
      | cons second rest =>
          obtain ⟨⟨ha, hb, stop⟩, later⟩ := List.isChain_cons_cons.mp stops
          refine List.isChain_cons_cons.mpr ⟨?_, ih later⟩
          rintro ⟨left, right⟩
          rw [sameRun, first.texts_of_kind left _ (List.getLast_mem ha),
            second.texts_of_kind right _ (List.head_mem hb)] at stop
          cases stop

theorem apart_of_runs (shown : List.Forall₂ Shows (runs ts) nodes) : Apart nodes :=
  apart_of_shows shown (List.isChain_getLast_head_splitBy _ _)

theorem mem_of_mem_runs (run : g ∈ runs ts) (member : t ∈ g) : t ∈ ts := by
  have inside := List.mem_flatten_of_mem run member
  rw [runs, List.flatten_splitBy] at inside
  exact List.mem_of_mem_filter inside

theorem apart_inside (each : ∀ t ∈ ts, ∀ n, Shows [t] n → ∀ m ∈ n.nodes, Apart m.children)
    (shown : List.Forall₂ Shows (runs ts) nodes) : ∀ m ∈ nodesOf nodes, Apart m.children := by
  intro m member
  obtain ⟨n, inNodes, below⟩ := mem_nodesOf.mp member
  obtain ⟨g, run, first⟩ := exists_of_mem_right shown inNodes
  cases first with
  | text texts =>
      rw [List.mem_singleton.mp below]
      exact List.isChain_nil
  | container kind inside =>
      exact each _ (mem_of_mem_runs run List.mem_cons_self) _ (.container kind inside) m below
  | leaf kind =>
      rw [List.mem_singleton.mp below]
      exact List.isChain_nil

theorem apart_below (t : Token) (n : Node) (shown : Shows [t] n) : ∀ m ∈ n.nodes, Apart m.children := by
  induction t using Token.induct generalizing n with
  | step t ih =>
      intro m member
      cases shown with
      | text texts =>
          rw [List.mem_singleton.mp member]
          exact List.isChain_nil
      | container kind inside =>
          rcases List.mem_cons.mp member with rfl | below
          · exact apart_of_runs inside
          · exact apart_inside ih inside m below
      | leaf kind =>
          rw [List.mem_singleton.mp member]
          exact List.isChain_nil

/-- The inline nodes of tokens are those of their runs, in order: at each level, one node for each known
token that is no text, and between them one text for all the texts that no other known token parts. No
two texts stand side by side, at no level. -/
theorem ofInlineTokens_merges (ts : List Token) (nodes : List Node) :
    (ofInlineTokens ts = .ok nodes ↔ List.Forall₂ Shows (runs ts) nodes) ∧
    (ofInlineTokens ts = .ok nodes → Apart nodes ∧ ∀ m ∈ nodesOf nodes, Apart m.children) := by
  have shows_iff : ofInlineTokens ts = .ok nodes ↔ List.Forall₂ Shows (runs ts) nodes :=
    ofInlineTokens_iff (fun t _ => ofInlineToken_iff t) nodes
  refine ⟨shows_iff, fun made => ?_⟩
  have shown := shows_iff.mp made
  exact ⟨apart_of_runs shown, apart_inside (fun t _ => apart_below t) shown⟩

/-- Two lines with a token of an unknown kind between them, and a strong text of two lines. -/
def brokenLines : List Token :=
  [.ofText ['a'], .ofRaw "footnote_ref" ['1'], .ofRaw "softbreak" [], .ofText ['b'],
    .ofChildren "strong" [.ofText ['c'], .ofRaw "softbreak" [], .ofText ['d']], .ofText ['e']]

theorem brokenLines_merge :
    ofInlineTokens brokenLines =
      .ok [.ofText "a\nb", .branch .strong [.ofText "c\nd"] [], .ofText "e"] ∧
    Apart [.ofText "a\nb", .branch .strong [.ofText "c\nd"] [], .ofText "e"] ∧
    ∀ m ∈ nodesOf [.ofText "a\nb", .branch .strong [.ofText "c\nd"] [], .ofText "e"],
      Apart m.children := by
  have made : ofInlineTokens brokenLines =
      .ok [.ofText "a\nb", .branch .strong [.ofText "c\nd"] [], .ofText "e"] := rfl
  exact ⟨made, (ofInlineTokens_merges brokenLines _).2 made⟩

end Node

end NoteMarkup
