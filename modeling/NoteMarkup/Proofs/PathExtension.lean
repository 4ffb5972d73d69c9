import NoteMarkup.Proofs.PathSlugs

/-! The extension of a path and what stands before it. The extension is looked for before a line feed that
ends the path, but it is the end of the path that is cut off. So a path is its stem and its extension unless
it ends in an extension and a line feed: then the point of the extension stays with the stem, and the line
feed is lost. -/

namespace NoteMarkup.Slug

variable {s front e : List Char}

/-- The extension of a path, empty if it has none. -/
def extensionOf (s : List Char) : List Char := (extension? s).getD []

/-- What is left of a path when as many characters as its extension has are cut off its end. -/
def stemOf (s : List Char) : List Char := s.take (s.length - (extensionOf s).length)

/-- The extension, unless the page slug drops it. -/
def keptExtension (s : List Char) (dropExtension : Bool) : List Char :=
  if dropExtension || pageExtensions.contains (extensionOf s) then [] else extensionOf s

/-- The path ends in an extension and a line feed. -/
def EndsLine (s : List Char) : Prop := ∃ front e, IsExtension e ∧ s = front ++ e ++ ['\n']

theorem pageChars_eq (path : List Char) (dropExtension : Bool) :
    pageChars path dropExtension =
      renameIndex (slugPath (stemOf (stripSlashes path))) ++
        keptExtension (stripSlashes path) dropExtension := by
  unfold stemOf keptExtension extensionOf
  cases found : extension? (stripSlashes path) with
  | none => simp [pageChars, found]
  | some e =>
      simp only [pageChars, found]
      rfl

/-- A path has no extension, or ends in it, or ends in it and a line feed. -/
theorem extension_cases (s : List Char) :
    extensionOf s = [] ∧ ¬EndsLine s ∨
      (∃ front, IsExtension (extensionOf s) ∧ s = front ++ extensionOf s) ∨
      ∃ front, IsExtension (extensionOf s) ∧ s = front ++ extensionOf s ++ ['\n'] := by
  cases found : extension? s with
  | none =>
      refine .inl ⟨by rw [extensionOf, found]; rfl, ?_⟩
      rintro ⟨front, e, isExtension, split⟩
      have there := extension?_eq_some_iff.mpr ⟨front, ['\n'], split, isExtension, rfl⟩
      rw [found] at there
      cases there
  | some e =>
      have same : extensionOf s = e := by rw [extensionOf, found]; rfl
      obtain ⟨front, rest, split, isExtension, ends⟩ := extension?_eq_some_iff.mp found
      rw [same]
      rcases atTextEnd_iff.mp ends with rfl | rfl
      · exact .inr (.inl ⟨front, isExtension, by rw [split, List.append_nil]⟩)
      · exact .inr (.inr ⟨front, isExtension, split⟩)

theorem IsExtension.not_endsLine (h : IsExtension e) (front : List Char) : ¬EndsLine (front ++ e) := by
  rintro ⟨front', e', -, split⟩
  refine h.getLast_ne (c := '\n') (by decide) front ?_
  rw [split, List.getLast?_concat]

theorem suffix_iff_not_endsLine (s : List Char) : extensionOf s <:+ s ↔ ¬EndsLine s := by
  rcases extension_cases s with ⟨none, other⟩ | ⟨front, isExtension, split⟩ |
    ⟨front, isExtension, split⟩
  · rw [none]
    exact iff_of_true List.nil_suffix other
  · refine iff_of_true ⟨front, split.symm⟩ ?_
    rw [split]
    exact isExtension.not_endsLine front
  · refine iff_of_false ?_ fun other => other ⟨front, _, isExtension, split⟩
    rintro ⟨front', ends⟩
    refine isExtension.getLast_ne (c := '\n') (by decide) front' ?_
    rw [ends, split, List.getLast?_concat]

theorem stemOf_append_iff (s : List Char) : stemOf s ++ extensionOf s = s ↔ ¬EndsLine s := by
  rw [← suffix_iff_not_endsLine]
  constructor
  · intro split
    exact ⟨_, split⟩
  · rintro ⟨front, split⟩
    have stem : stemOf s = front := by
      have length := congrArg List.length split
      rw [List.length_append] at length
      rw [stemOf, ← length, Nat.add_sub_cancel, ← split, List.take_left]
    rw [stem, split]

/-- Before a line feed the point of the extension stays with the stem. -/
theorem stemOf_of_line (isExtension : IsExtension e) (split : s = front ++ e ++ ['\n']) :
    stemOf s = front ++ ['.'] := by
  have found : extension? s = some e :=
    extension?_eq_some_iff.mpr ⟨front, ['\n'], split, isExtension, rfl⟩
  obtain @⟨name, -, -⟩ := isExtension
  have pointed : front ++ '.' :: name ++ ['\n'] = (front ++ ['.']) ++ (name ++ ['\n']) := by simp
  rw [stemOf, extensionOf, found, split, pointed, Option.getD_some, List.take_left' (by simp; omega)]

theorem fileExtension?_eq_some_iff {path ext : String} :
    fileExtension? path = some ext ↔ extension? path.toList = some ext.toList := by
  rw [fileExtension?, Option.map_eq_some_iff]
  constructor
  · rintro ⟨e, found, rfl⟩
    rw [found, String.toList_ofList]
  · intro found
    exact ⟨_, found, String.ofList_toList⟩

/-- The extension of a path is a point and letters or digits. The path ends in it, and is the stem that its
page slug is made of and the extension, unless the path ends in an extension and a line feed. -/
theorem extension_splits_iff (path : String) (dropExtension : Bool) :
    (∀ ext, fileExtension? path = some ext → IsExtension ext.toList) ∧
      ((∀ ext, fileExtension? path = some ext → ext.toList <:+ path.toList) ↔
        ¬EndsLine path.toList) ∧
      (page path dropExtension).toList =
        renameIndex (slugPath (stemOf (stripSlashes path.toList))) ++
          keptExtension (stripSlashes path.toList) dropExtension ∧
      (stemOf (stripSlashes path.toList) ++ extensionOf (stripSlashes path.toList) =
        stripSlashes path.toList ↔ ¬EndsLine (stripSlashes path.toList)) ∧
      ∀ front e, IsExtension e → stripSlashes path.toList = front ++ e ++ ['\n'] →
        stemOf (stripSlashes path.toList) = front ++ ['.'] := by
  refine ⟨?_, ?_, ?_, stemOf_append_iff _, fun front e => stemOf_of_line⟩
  · intro ext found
    obtain ⟨-, -, -, isExtension, -⟩ := extension?_eq_some_iff.mp (fileExtension?_eq_some_iff.mp found)
    exact isExtension
  · rw [← suffix_iff_not_endsLine]
    constructor
    · intro ends
      cases found : extension? path.toList with
      | none =>
          rw [extensionOf, found]
          exact List.nil_suffix
      | some e =>
          have named : fileExtension? path = some (String.ofList e) :=
            fileExtension?_eq_some_iff.mpr (by rw [found, String.toList_ofList])
          have suffix := ends _ named
          rw [String.toList_ofList] at suffix
          rwa [extensionOf, found]
    · intro suffix ext found
      rwa [extensionOf, fileExtension?_eq_some_iff.mp found] at suffix
  · rw [page, String.toList_ofList, pageChars_eq]

theorem archive_splits :
    fileExtension? "/assets/My notes.tar.GZ" = some ".GZ" ∧
      ".GZ".toList <:+ "/assets/My notes.tar.GZ".toList ∧
      (page "/assets/My notes.tar.GZ" false).toList = "assets/My-notes.tar".toList ++ ".GZ".toList := by
  obtain ⟨-, ends, slug, -, -⟩ := extension_splits_iff "/assets/My notes.tar.GZ" false
  have found : fileExtension? "/assets/My notes.tar.GZ" = some ".GZ" := by decide
  have noLine : ¬EndsLine "/assets/My notes.tar.GZ".toList := by
    rintro ⟨front, e, -, split⟩
    have last := congrArg List.getLast? split
    rw [List.getLast?_concat] at last
    exact absurd last (by decide)
  exact ⟨found, ends.mpr noLine _ found, slug.trans (by decide)⟩

/-- The name of a note with a line feed after it. It does not end in the extension that is found, and when
that much is cut off its end the slug keeps the point. -/
theorem brokenName_unsplit :
    fileExtension? "a.md\n" = some ".md" ∧ ¬".md".toList <:+ "a.md\n".toList ∧
      stemOf "a.md\n".toList ++ extensionOf "a.md\n".toList ≠ "a.md\n".toList ∧
      page "a.md\n" false = "a." := by
  decide

end NoteMarkup.Slug
