import NoteMarkup.Proofs.ReadMarkup

/-! Attributes read back. The text of a record of attributes is a sequence of items, each after a space,
with or without a value. The items are the entries that say something, in the order of the record, so
records have the same text just if they say the same. -/

namespace NoteMarkup.Html

open Text

/-- A character of a name in an item: a space starts the next item, and `=` starts the value. -/
def isItemChar (c : Char) : Bool := c != ' ' && c != '='

/-- The items that make up a text, each a space and a name, or a space, a name, `=` and a value between
quotes. -/
def readItems? : List Char → Option Attrs
  | [] => some []
  | ' ' :: s =>
    let name := String.ofList (s.takeWhile isItemChar)
    match _h : s.dropWhile isItemChar with
    | '=' :: '"' :: v =>
      let value := unescaped (String.ofList (v.takeWhile (· != '"')))
      match _h' : v.dropWhile (· != '"') with
      | [] => none
      | _ :: rest => (readItems? rest).map ((name, some value) :: ·)
    | rest => (readItems? rest).map ((name, none) :: ·)
  | _ => none
termination_by s => s.length
decreasing_by
  · have name := (List.dropWhile_suffix (l := s) isItemChar).length_le
    have value := (List.dropWhile_suffix (l := v) (· != '"')).length_le
    rw [_h] at name
    rw [_h'] at value
    simp only [List.length_cons] at name value ⊢
    omega
  · have name := (List.dropWhile_suffix (l := s) isItemChar).length_le
    rw [_h] at name
    simp only [List.length_cons]
    omega

/-- What a value gives its attribute: nothing, a bare name, or a text. -/
def given? : Value → Option (Option String)
  | .null | .bool false | .list [] => none
  | .bool true => some none
  | v => some (some (attributeText v))

/-- The attributes that a record sets, in its order. -/
def effective (r : Record) : Attrs := r.filterMap fun e => (given? e.2).map (e.1.text, ·)

/-- A name that items can be told apart by. Names of letters, digits and hyphens are such names. -/
def IsItemName (name : String) : Prop := ∀ c ∈ name.toList, isItemChar c = true

instance (name : String) : Decidable (IsItemName name) :=
  decidable_of_iff (name.toList.all isItemChar = true) List.all_eq_true

/-- Every key of the record is a name that items can be told apart by. -/
def Itemizable (r : Record) : Prop := ∀ e ∈ r, ∃ name, e.1 = .str name ∧ IsItemName name

section Reading

variable {name value rest : List Char}

theorem readItems?_bare (inside : ∀ c ∈ name, isItemChar c = true)
    (stop : ∀ c, rest.head? = some c → c = ' ') :
    readItems? (' ' :: (name ++ rest)) = (readItems? rest).map ((String.ofList name, none) :: ·) := by
  have stops : ∀ c, rest.head? = some c → isItemChar c = false := by
    intro c h
    rw [stop c h]
    rfl
  rw [readItems?, takeWhile_append_stop inside stops]
  split
  · next v found =>
      rw [dropWhile_append_stop inside stops] at found
      exact absurd (stop '=' (by rw [found]; rfl)) (by decide)
  · rw [dropWhile_append_stop inside stops]

theorem readItems?_value (inside : ∀ c ∈ name, isItemChar c = true) (quote : '"' ∉ value)
    (rest : List Char) :
    readItems? (' ' :: (name ++ '=' :: '"' :: (value ++ '"' :: rest))) =
      (readItems? rest).map ((String.ofList name, some (unescaped (String.ofList value))) :: ·) := by
  have equals : ∀ c, ('=' :: '"' :: (value ++ '"' :: rest)).head? = some c → isItemChar c = false := by
    rintro _ ⟨⟩
    rfl
  have other : ∀ c ∈ value, (c != '"') = true := by
    intro c member
    rw [bne_iff_ne]
    rintro rfl
    exact quote member
  have closed : ∀ c, ('"' :: rest).head? = some c → (c != '"') = false := by
    rintro _ ⟨⟩
    rfl
  rw [readItems?, takeWhile_append_stop inside equals]
  split
  · next v found =>
      rw [dropWhile_append_stop inside equals] at found
      cases found
      rw [takeWhile_append_stop other closed]
      split
      · next unclosed =>
          rw [dropWhile_append_stop other closed] at unclosed
          cases unclosed
      · next after =>
          rw [dropWhile_append_stop other closed] at after
          cases after
          rfl
  · next none => exact (none _ (dropWhile_append_stop inside equals)).elim

/-- What follows an item is another item. -/
theorem eq_space_of_head_write {as : Attrs} {c : Char} (h : as.write.toList.head? = some c) : c = ' ' := by
  rcases as with _ | ⟨⟨name, _ | value⟩, as⟩
  · cases h
  · simpa [Attrs.write] using h.symm
  · simpa [Attrs.write] using h.symm

theorem readItems?_write {as : Attrs} (names : ∀ a ∈ as, IsItemName a.1)
    (values : ∀ a ∈ as, ∀ v ∈ a.2, '"' ∉ v.toList) :
    readItems? as.write.toList = some (as.map fun a => (a.1, a.2.map unescaped)) := by
  induction as with
  | nil => simp [Attrs.write, readItems?]
  | cons a as ih =>
      obtain ⟨inside, laterNames⟩ := List.forall_mem_cons.mp names
      obtain ⟨quote, laterValues⟩ := List.forall_mem_cons.mp values
      have later := ih laterNames laterValues
      rcases a with ⟨name, _ | value⟩
      · have item : (Attrs.write ((name, none) :: as)).toList =
            ' ' :: (name.toList ++ (Attrs.write as).toList) := by
          simp [Attrs.write]
        rw [item, readItems?_bare inside fun c => eq_space_of_head_write, later, String.ofList_toList]
        rfl
      · have item : (Attrs.write ((name, some value) :: as)).toList =
            ' ' :: (name.toList ++ '=' :: '"' :: (value.toList ++ '"' :: (Attrs.write as).toList)) := by
          simp [Attrs.write]
        rw [item, readItems?_value inside (quote value rfl), later, String.ofList_toList,
          String.ofList_toList]
        rfl

end Reading

section Record

variable {r s : Record}

theorem attrOf_eq (name : String) (v : Value) :
    attrOf name v = (given? v).toList.map fun text => (name, text.map escape) := by
  unfold attrOf given?
  split <;> simp_all

theorem effective_cons (e : Value × Value) (r : Record) :
    effective (e :: r) = (given? e.2).toList.map (e.1.text, ·) ++ effective r := by
  rw [effective, List.filterMap_cons]
  cases given? e.2 <;> rfl

/-- The attributes that are written are the effective ones, with the values escaped. -/
theorem attrList_eq (r : Record) : attrList r = (effective r).map fun a => (a.1, a.2.map escape) := by
  induction r with
  | nil => rfl
  | cons e r ih =>
      rw [attrList, List.flatMap_cons, ← attrList, ih, attrOf_eq, effective_cons, List.map_append,
        List.map_map]
      rfl

theorem attributes_eq (r : Record) :
    attributes r = Attrs.write ((effective r).map fun a => (a.1, a.2.map escape)) := by
  rw [attributes_eq_write, attrList_eq]

theorem isItemName_of_mem_effective (names : Itemizable r) {a : String × Option String}
    (h : a ∈ effective r) : IsItemName a.1 := by
  obtain ⟨e, member, given⟩ := List.mem_filterMap.mp h
  obtain ⟨text, -, rfl⟩ := Option.map_eq_some_iff.mp given
  obtain ⟨name, key, inside⟩ := names e member
  rw [key]
  exact inside

theorem unescaped_map_escape (as : Attrs) :
    (as.map fun a => (a.1, a.2.map escape)).map (fun a => (a.1, a.2.map unescaped)) = as := by
  rw [List.map_map]
  refine (List.map_congr_left fun a _ => ?_).trans (List.map_id as)
  rcases a with ⟨name, _ | value⟩
  · rfl
  · exact congrArg (fun v => (name, some v)) (unescaped_escape value)

/-- The text of the attributes of a record reads back as what the record sets, in its order. -/
theorem readItems?_attributes (names : Itemizable r) :
    readItems? (attributes r).toList = some (effective r) := by
  rw [attributes_eq, readItems?_write, unescaped_map_escape]
  · intro a member
    obtain ⟨b, inRecord, rfl⟩ := List.mem_map.mp member
    exact isItemName_of_mem_effective (a := b) names inRecord
  · intro a member v given
    obtain ⟨b, -, rfl⟩ := List.mem_map.mp member
    obtain ⟨value, -, rfl⟩ := Option.map_eq_some_iff.mp given
    exact (not_mem_of_isPlainChars (isPlain_escape value)).2

/-- Attributes read back: of a record whose keys are names the text gives exactly the entries that say
something, in their order, with the values that they say. Two records have the same text just if their
effective attributes are the same. -/
theorem attributes_read_back (r s : Record) (names : Itemizable r) (others : Itemizable s) :
    readItems? (attributes r).toList = some (effective r) ∧
    (attributes r = attributes s ↔ effective r = effective s) := by
  refine ⟨readItems?_attributes names, ⟨fun same => ?_, fun same => ?_⟩⟩
  · have read := readItems?_attributes names
    rw [same, readItems?_attributes others] at read
    exact (Option.some.inj read).symm
  · rw [attributes_eq, attributes_eq, same]

/-- Classes, a bare name, and a value that looks like another attribute and like an escape. -/
def calloutAttrs : Record :=
  [(.str "class", .list [.str "callout", .str "note"]), (.str "data-fold", .bool false),
    (.str "hidden", .bool true), (.str "title", .str "a\" b=\"&quot;"), (.str "id", .null)]

theorem calloutAttrs_read_back :
    readItems? " class=\"callout note\" hidden title=\"a&quot; b=&quot;&amp;quot;\"".toList =
      some [("class", some "callout note"), ("hidden", none), ("title", some "a\" b=\"&quot;")] ∧
    attributes calloutAttrs = attributes (calloutAttrs ++ [(.str "style", .list [])]) := by
  have names : Itemizable (calloutAttrs ++ [(.str "style", .list [])]) := by
    intro e member
    simp only [calloutAttrs, List.cons_append, List.nil_append, List.mem_cons, List.not_mem_nil,
      or_false] at member
    rcases member with rfl | rfl | rfl | rfl | rfl | rfl <;> exact ⟨_, rfl, by decide⟩
  obtain ⟨read, same⟩ := attributes_read_back calloutAttrs (calloutAttrs ++ [(.str "style", .list [])])
    (fun e member => names e (List.mem_append_left _ member)) names
  exact ⟨read, same.mpr rfl⟩

end Record

end NoteMarkup.Html
