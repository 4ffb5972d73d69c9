import NoteMarkup.Proofs.Tree

/-! The text of a tree. It is joined level by level, and what is empty is passed over on every level.
To join the parts of a list and then what they give is to join them all at once, so the text of a
tree is that of its texts in pre-order, joined once. -/

namespace NoteMarkup.Node

variable {joiner s t : String} {texts front back : List String} {n : Node}

/-! ### Joined texts -/

/-- The texts of a list that are joined. -/
def full (texts : List String) : List String := texts.filter (· ≠ "")

theorem joinTexts_eq (joiner : String) (texts : List String) :
    joinTexts joiner texts = joiner.intercalate (full texts) := by
  have same : (fun t : String => !t.isEmpty) = fun t => decide (t ≠ "") := by
    funext t
    by_cases empty : t = "" <;> simp [empty]
  rw [joinTexts, same, full]

theorem full_append (front back : List String) : full (front ++ back) = full front ++ full back :=
  List.filter_append ..

theorem joinTexts_of_full_nil (h : full texts = []) : joinTexts joiner texts = "" := by
  rw [joinTexts_eq, h, String.intercalate_nil]

theorem joinTexts_ne_empty (h : full texts ≠ []) : joinTexts joiner texts ≠ "" := by
  obtain ⟨t, rest, parts⟩ := List.exists_cons_of_ne_nil h
  have first : t ≠ "" := by
    have member : t ∈ full texts := parts ▸ List.mem_cons_self
    simpa using (List.mem_filter.mp member).2
  rw [joinTexts_eq, parts]
  cases rest with
  | nil => rwa [String.intercalate_singleton]
  | cons u rest => simp [first]

theorem joinTexts_empty_cons : joinTexts joiner ("" :: texts) = joinTexts joiner texts := rfl

@[simp] theorem joinTexts_singleton (t : String) : joinTexts joiner [t] = t := by
  by_cases empty : t = "" <;> simp [joinTexts, empty]

theorem joinTexts_pair_empty (t : String) : joinTexts joiner [t, ""] = t := by
  by_cases empty : t = "" <;> simp [joinTexts, empty]

theorem joinTexts_pair (hs : s ≠ "") (ht : t ≠ "") : joinTexts joiner [s, t] = s ++ joiner ++ t := by
  simp [joinTexts, hs, ht]

/-- A list of texts can be joined in two steps. An empty part leaves no mark in the second step. -/
theorem joinTexts_append (front back : List String) :
    joinTexts joiner (front ++ back) =
      joinTexts joiner [joinTexts joiner front, joinTexts joiner back] := by
  by_cases noFront : full front = []
  · rw [joinTexts_of_full_nil noFront, joinTexts_empty_cons, joinTexts_singleton, joinTexts_eq,
      full_append, noFront, List.nil_append, joinTexts_eq]
  by_cases noBack : full back = []
  · rw [joinTexts_of_full_nil noBack, joinTexts_pair_empty, joinTexts_eq, full_append, noBack,
      List.append_nil, joinTexts_eq]
  · rw [joinTexts_pair (joinTexts_ne_empty noFront) (joinTexts_ne_empty noBack), joinTexts_eq,
      full_append, String.intercalate_append_of_ne_nil noFront noBack, joinTexts_eq, joinTexts_eq]

theorem joinTexts_cons (t : String) (texts : List String) :
    joinTexts joiner (t :: texts) = joinTexts joiner [t, joinTexts joiner texts] := by
  rw [← List.singleton_append, joinTexts_append, joinTexts_singleton]

/-- Joining the lists of texts that a list gives, and then the results, joins all of them. -/
theorem joinTexts_flatMap {α : Type} (f : α → List String) (as : List α) :
    joinTexts joiner (as.flatMap f) = joinTexts joiner (as.map fun a => joinTexts joiner (f a)) := by
  induction as with
  | nil => rfl
  | cons a as ih => rw [List.flatMap_cons, List.map_cons, joinTexts_append, ih, ← joinTexts_cons]

/-- With nothing put between them, the empty texts make no difference. -/
theorem joinTexts_empty (texts : List String) : joinTexts "" texts = String.join texts := by
  induction texts with
  | nil => rfl
  | cons t texts ih =>
      rw [joinTexts_cons, ih, String.join_cons]
      by_cases empty : t = ""
      · rw [empty, joinTexts_empty_cons, joinTexts_singleton, String.empty_append]
      by_cases blank : String.join texts = ""
      · rw [blank, joinTexts_pair_empty, String.append_empty]
      · rw [joinTexts_pair empty blank, String.append_empty]

/-! ### The texts of a tree -/

/-- The nodes of a kind in a tree, in pre-order. -/
def nodesOfKind (k : Kind) (n : Node) : List Node := n.nodes.filter fun m => m.kind == k

/-- What a text holds. -/
def content : Node → String
  | .leaf (.text content) _ => content
  | _ => ""

theorem nodesOf_eq_flatMap (ns : List Node) : nodesOf ns = ns.flatMap nodes := by
  induction ns with
  | nil => rfl
  | cons n ns ih => rw [nodesOf, ih, List.flatMap_cons]

theorem plainTexts_eq_map (joiner : String) (ns : List Node) :
    plainTexts joiner ns = ns.map (plainText joiner) := by
  induction ns with
  | nil => rfl
  | cons n ns ih => rw [plainTexts, ih, List.map_cons]

theorem nodesOfKind_of_ne {k : Kind} (h : n.kind ≠ k) :
    n.nodesOfKind k = n.children.flatMap (nodesOfKind k) := by
  rw [nodesOfKind, nodes_eq_cons, nodesOf_eq_flatMap, List.filter_cons_of_neg (by simpa using h),
    List.filter_flatMap]
  rfl

/-- A node other than a text has the text of its children. -/
theorem plainText_of_ne (h : n.kind ≠ .text) :
    n.plainText joiner = joinTexts joiner (n.children.map (plainText joiner)) := by
  cases n with
  | leaf l info =>
      cases l with
      | text => exact (h rfl).elim
      | _ => rfl
  | branch c cs info => rw [plainText, plainTexts_eq_map, children]
  | table header rows al info =>
      cases header <;> rw [plainText, plainTexts_eq_map] <;> rfl

theorem eq_text_of_kind (h : n.kind = .text) : ∃ content info, n = leaf (.text content) info := by
  cases n with
  | leaf l info =>
      cases l with
      | text content => exact ⟨content, info, rfl⟩
      | _ => cases h
  | branch c cs info => cases c <;> cases h
  | table => cases h

theorem plainText_eq (joiner : String) (n : Node) :
    n.plainText joiner = joinTexts joiner ((n.nodesOfKind .text).map content) := by
  induction n using induct_children with
  | step n ih =>
      by_cases text : n.kind = .text
      · obtain ⟨words, info, rfl⟩ := eq_text_of_kind text
        exact (joinTexts_singleton words).symm
      · -- what each child gives is joined already, so the children join as all their texts do
        rw [plainText_of_ne text, nodesOfKind_of_ne text, List.map_flatMap, joinTexts_flatMap,
          List.map_congr_left ih]

theorem plainTextOf_eq (joiner : String) (ns : List Node) :
    plainTextOf joiner ns = joinTexts joiner ((ns.flatMap (nodesOfKind .text)).map content) := by
  rw [plainTextOf, plainTexts_eq_map, List.map_flatMap, joinTexts_flatMap,
    List.map_congr_left fun n _ => plainText_eq joiner n]

/-- The text of a tree, or of a list of trees, is what the texts among their nodes in pre-order hold,
without those that are empty, with the joiner between neighbours; with an empty joiner it is all that
the texts hold, one after the other. -/
theorem plainText_of_texts (joiner : String) (n : Node) (ns : List Node) :
    n.plainText joiner =
      joiner.intercalate (((n.nodesOfKind .text).map content).filter (· ≠ "")) ∧
    n.plainText "" = String.join ((n.nodesOfKind .text).map content) ∧
    plainTextOf joiner ns =
      joiner.intercalate (((ns.flatMap (nodesOfKind .text)).map content).filter (· ≠ "")) ∧
    plainTextOf "" ns = String.join ((ns.flatMap (nodesOfKind .text)).map content) := by
  refine ⟨?_, ?_, ?_, ?_⟩
  · rw [plainText_eq, joinTexts_eq, full]
  · rw [plainText_eq, joinTexts_empty]
  · rw [plainTextOf_eq, joinTexts_eq, full]
  · rw [plainTextOf_eq, joinTexts_empty]

end NoteMarkup.Node
