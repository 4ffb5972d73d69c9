import Mathlib.Data.List.Perm.Basic
import NoteMarkup.Node.Children

/-! Reading the children of a node and replacing them. A container takes any list as it is. A table
takes rows only, and the first header row of them comes to the front; so a table whose header is no
header row, or that has a header row in its body alone, does not come back from its own children. -/

namespace NoteMarkup.Node

variable {n : Node} {new rows : List Node}

/-- The rows with the first header row, if there is one, in front of the others. -/
def headerFirst (rows : List Node) : List Node :=
  (rows.find? isHeaderRow).toList ++ rows.eraseP isHeaderRow

/-- The header row that is taken out is the first one, and the others keep their order. -/
theorem splitHeader_eq (rows : List Node) :
    splitHeader rows = (rows.find? isHeaderRow, rows.eraseP isHeaderRow) := by
  induction rows with
  | nil => rfl
  | cons r rs ih =>
      rw [splitHeader]
      by_cases header : r.isHeaderRow = true
      · rw [if_pos header, List.find?_cons_of_pos header, List.eraseP_cons_of_pos header]
      · rw [if_neg header, ih, List.find?_cons_of_neg header, List.eraseP_cons_of_neg header]

theorem headerFirst_of_none (h : ∀ r ∈ rows, ¬r.isHeaderRow = true) : headerFirst rows = rows := by
  rw [headerFirst, List.find?_eq_none.mpr h, List.eraseP_of_forall_not h]
  rfl

theorem headerFirst_append {front back : List Node} {r : Node}
    (others : ∀ b ∈ front, ¬b.isHeaderRow = true) (header : r.isHeaderRow = true) :
    headerFirst (front ++ r :: back) = r :: (front ++ back) := by
  have found : (front ++ r :: back).find? isHeaderRow = some r := by
    rw [List.find?_append, List.find?_eq_none.mpr others, List.find?_cons_of_pos header]
    rfl
  rw [headerFirst, found, List.eraseP_append_right _ others, List.eraseP_cons_of_pos header]
  rfl

/-- No row is lost and none is there twice. -/
theorem headerFirst_perm (rows : List Node) : (headerFirst rows).Perm rows := by
  cases found : rows.find? isHeaderRow with
  | none => rw [headerFirst_of_none (List.find?_eq_none.mp found)]
  | some r =>
      obtain ⟨header, front, back, split, others⟩ := List.find?_eq_some_iff_append.mp found
      rw [split, headerFirst_append (by simpa using others) header]
      exact List.perm_middle.symm

/-- A list that the node cannot hold: something else than rows, for a table. -/
def Refuses (n : Node) (new : List Node) : Prop := n.kind = .table ∧ ∃ c ∈ new, c.kind ≠ .tableRow

theorem firstOther?_eq_none_iff : firstOther? new = none ↔ ∀ c ∈ new, c.kind = .tableRow := by
  simp [firstOther?, List.find?_eq_none]

theorem not_refuses_leaf (l : Leaf) (info : Record) : ¬(leaf l info).Refuses new := by
  rintro ⟨table, -⟩
  cases l <;> cases table

theorem not_refuses_branch (c : Container) (cs : List Node) (info : Record) :
    ¬(branch c cs info).Refuses new := by
  rintro ⟨table, -⟩
  cases c <;> cases table

/-- The header of the table is no header row, or there is none and the body has a header row. -/
def Misheaded : Node → Prop
  | .table (some h) _ _ _ => h.isHeaderRow = false
  | .table none body _ _ => ∃ r ∈ body, r.isHeaderRow = true
  | _ => False

section Table

variable {header : Option Node} {body : List Node} {al : List (Option String)} {info : Record}

theorem table_refuses_iff :
    (table header body al info).Refuses new ↔ ∃ c ∈ new, c.kind ≠ .tableRow :=
  ⟨fun h => h.2, fun other => ⟨rfl, other⟩⟩

theorem replaceChildren_table (h : ∀ c ∈ new, c.kind = .tableRow) :
    (table header body al info).replaceChildren new =
      .ok (table (new.find? isHeaderRow) (new.eraseP isHeaderRow) al info) := by
  rw [replaceChildren, firstOther?_eq_none_iff.mpr h, splitHeader_eq]

/-- The children of a table are split into its header and its body unless it is misheaded. -/
theorem splits_back_iff :
    (header.toList ++ body).find? isHeaderRow = header ∧
        (header.toList ++ body).eraseP isHeaderRow = body ↔
      ¬(table header body al info).Misheaded := by
  cases header with
  | none =>
      simp only [Misheaded, Option.toList_none, List.nil_append, List.find?_eq_none, not_exists,
        not_and, and_iff_left_iff_imp]
      exact List.eraseP_of_forall_not
  | some h =>
      rw [Misheaded, Bool.not_eq_false, Option.toList_some, List.singleton_append]
      constructor
      · rintro ⟨found, -⟩
        exact List.find?_some found
      · intro first
        exact ⟨List.find?_cons_of_pos first, List.eraseP_cons_of_pos first⟩

end Table

theorem replaceChildren_error_iff : (∃ k, n.replaceChildren new = .error k) ↔ n.Refuses new := by
  cases n with
  | leaf l info => exact iff_of_false nofun (not_refuses_leaf l info)
  | branch c cs info => exact iff_of_false nofun (not_refuses_branch c cs info)
  | table header body al info =>
      rw [table_refuses_iff]
      by_cases onlyRows : ∀ c ∈ new, c.kind = .tableRow
      · rw [replaceChildren_table onlyRows]
        exact iff_of_false nofun (by simpa using onlyRows)
      · cases found : firstOther? new with
        | none => exact absurd (firstOther?_eq_none_iff.mp found) onlyRows
        | some k =>
            have error : (table header body al info).replaceChildren new = .error k := by
              rw [replaceChildren, found]
            exact iff_of_true ⟨k, error⟩ (by simpa using onlyRows)

theorem replaceChildren_children_iff :
    n.replaceChildren n.children = .ok n ↔ ¬n.Refuses n.children ∧ ¬n.Misheaded := by
  cases n with
  | leaf l info => exact iff_of_true rfl ⟨not_refuses_leaf l info, not_false⟩
  | branch c cs info => exact iff_of_true rfl ⟨not_refuses_branch c cs info, not_false⟩
  | table header body al info =>
      by_cases refused : (table header body al info).Refuses (table header body al info).children
      · obtain ⟨k, error⟩ := replaceChildren_error_iff.mpr refused
        rw [error]
        exact iff_of_false nofun fun h => h.1 refused
      · have onlyRows : ∀ c ∈ header.toList ++ body, c.kind = .tableRow := by
          simpa [table_refuses_iff, children] using refused
        rw [and_iff_right refused, ← splits_back_iff, children, replaceChildren_table onlyRows]
        simp

/-- Replacing children undoes reading them and the other way round. Only a table refuses children,
and only others than rows; a leaf stays as it is; any other node has the new children, a table with
its first header row in front of the rest. A node that takes its own children is the same again,
unless it is a misheaded table. -/
theorem replaceChildren_inverse (n : Node) (new : List Node) :
    ((∃ k, n.replaceChildren new = .error k) ↔
      n.kind = .table ∧ ∃ c ∈ new, c.kind ≠ .tableRow) ∧
    (∀ l info, (leaf l info).replaceChildren new = .ok (leaf l info)) ∧
    (∀ c cs info, ∃ m, (branch c cs info).replaceChildren new = .ok m ∧ m.children = new) ∧
    (∀ header body al info, (∀ c ∈ new, c.kind = .tableRow) ↔
      ∃ m, (table header body al info).replaceChildren new = .ok m ∧ m.children = headerFirst new) ∧
    (headerFirst new).Perm new ∧
    (n.replaceChildren n.children = .ok n ↔ ¬n.Refuses n.children ∧ ¬n.Misheaded) := by
  refine ⟨replaceChildren_error_iff, fun l info => rfl, fun c cs info => ⟨_, rfl, rfl⟩, ?_,
    headerFirst_perm new, replaceChildren_children_iff⟩
  intro header body al info
  constructor
  · intro onlyRows
    exact ⟨_, replaceChildren_table onlyRows, rfl⟩
  · rintro ⟨m, taken, -⟩ c member
    by_contra other
    obtain ⟨k, error⟩ := replaceChildren_error_iff.mpr
      (table_refuses_iff.mpr ⟨c, member, other⟩)
    rw [error] at taken
    cases taken

/-- The header of a misheaded table becomes a row of its body. -/
example : (table (some (branch (.tableRow false) [] [])) [] [] []).replaceChildren
      [branch (.tableRow false) [] []] = .ok (table none [branch (.tableRow false) [] []] [] []) :=
  rfl

end NoteMarkup.Node
