import NoteMarkup.Html.Render
import NoteMarkup.Proofs.Record

/-! Well-formed markup. A text is a sequence of parts: plain text, opening tags and closing tags. It is
well formed if its parts are sound and its tags nest. A fragment leaves the tags that are open around
it as they are, so fragments can be put together. -/

namespace NoteMarkup.Html

/-- The references that stand for the five characters of markup. -/
def references : List (List Char) :=
  ["&amp;".toList, "&lt;".toList, "&gt;".toList, "&quot;".toList, "&#x27;".toList]

/-- A text without `<`, `>` and quotes in which every `&` starts one of the references. -/
def isPlainChars : List Char → Bool
  | [] => true
  | c :: cs =>
    (if c == '&' then references.any fun ref => ref.isPrefixOf (c :: cs)
      else c != '<' && c != '>' && c != '"' && c != '\'') && isPlainChars cs

def isPlain (s : String) : Bool := isPlainChars s.toList

theorem isPlainChars_append {s t : List Char} (hs : isPlainChars s = true)
    (ht : isPlainChars t = true) : isPlainChars (s ++ t) = true := by
  induction s with
  | nil => exact ht
  | cons c s ih =>
      rw [isPlainChars, Bool.and_eq_true] at hs
      rw [List.cons_append, isPlainChars, Bool.and_eq_true]
      refine ⟨?_, ih hs.2⟩
      have first := hs.1
      split at first
      · next reference =>
          rw [if_pos reference, List.any_eq_true]
          obtain ⟨ref, listed, before⟩ := List.any_eq_true.mp first
          refine ⟨ref, listed, ?_⟩
          rw [List.isPrefixOf_iff_prefix] at before ⊢
          exact before.trans (List.prefix_append (c :: s) t)
      · next other =>
          rw [if_neg other]
          exact first

theorem isPlain_append {s t : String} (hs : isPlain s = true) (ht : isPlain t = true) :
    isPlain (s ++ t) = true := by
  rw [isPlain, String.toList_append]
  exact isPlainChars_append hs ht

theorem isPlainChars_escapeChar (c : Char) : isPlainChars (escapeChar c) = true := by
  unfold escapeChar
  split
  · decide
  split
  · decide
  split
  · decide
  split
  · decide
  split
  · decide
  · simp_all [isPlainChars]

theorem isPlain_escape (s : String) : isPlain (escape s) = true := by
  rw [isPlain, escape, String.toList_ofList, escapeChars]
  induction s.toList with
  | nil => rfl
  | cons c cs ih => exact isPlainChars_append (isPlainChars_escapeChar c) ih

/-- A name of an element or an attribute. -/
def isName (s : String) : Bool := !s.isEmpty && s.toList.all fun c => c.isAlphanum || c == '-'

/-- Attributes of a tag: a name and a value, unless it is a bare name. -/
abbrev Attrs := List (String × Option String)

namespace Attrs

def write : Attrs → String
  | [] => ""
  | (name, none) :: as => " " ++ name ++ write as
  | (name, some value) :: as => " " ++ name ++ "=\"" ++ value ++ "\"" ++ write as

def isSound (as : Attrs) : Bool :=
  as.all fun a => isName a.1 && match a.2 with | some v => isPlain v | none => true

theorem write_append (as bs : Attrs) : write (as ++ bs) = write as ++ write bs := by
  induction as with
  | nil => simp [write]
  | cons a as ih =>
      rcases a with ⟨name, _ | value⟩
      · simp [write, ih, String.append_assoc]
      · simp [write, ih, String.append_assoc]

theorem isSound_append {as bs : Attrs} (ha : as.isSound = true) (hb : bs.isSound = true) :
    isSound (as ++ bs) = true := by
  rw [isSound, List.all_append, Bool.and_eq_true]
  exact ⟨ha, hb⟩

theorem isSound_value {name value : String} {as : Attrs} (hn : isName name = true)
    (hv : isPlain value = true) (ha : as.isSound = true) :
    isSound ((name, some value) :: as) = true := by
  simp only [isSound, List.all_cons, hn, hv, Bool.and_self, Bool.true_and]
  exact ha

theorem isSound_bare {name : String} {as : Attrs} (hn : isName name = true)
    (ha : as.isSound = true) : isSound ((name, none) :: as) = true := by
  simp only [isSound, List.all_cons, hn, Bool.and_self, Bool.true_and]
  exact ha

end Attrs

/-- A part of a text of markup. -/
inductive Part where
  | text (s : String)
  | opening (name : String) (attrs : Attrs)
  | closing (name : String)

def Part.write : Part → String
  | .text s => s
  | .opening name attrs => "<" ++ name ++ attrs.write ++ ">"
  | .closing name => "</" ++ name ++ ">"

def Part.isSound : Part → Bool
  | .text s => isPlain s
  | .opening name attrs => isName name && attrs.isSound
  | .closing name => isName name

/-- The parts one after the other. -/
def written : List Part → String
  | [] => ""
  | p :: ps => p.write ++ written ps

/-- The elements without a closing tag. -/
def isVoid (name : String) : Bool := ["br", "hr", "img", "input"].contains name

/-- Whether the tags close in the order in which they were opened, those in `opened` before all. -/
def nests : (opened : List String) → List Part → Bool
  | opened, [] => opened.isEmpty
  | opened, .text _ :: ps => nests opened ps
  | opened, .opening name _ :: ps => nests (if isVoid name then opened else name :: opened) ps
  | name :: opened, .closing name' :: ps => name == name' && nests opened ps
  | [], .closing _ :: _ => false

/-- The text splits into sound parts whose tags nest. -/
def WellFormed (html : String) : Prop :=
  ∃ ps, html = written ps ∧ (∀ p ∈ ps, p.isSound = true) ∧ nests [] ps = true

/-- The text splits into sound parts, which close every tag that they open and no other. -/
def Fragment (html : String) : Prop :=
  ∃ ps, html = written ps ∧ (∀ p ∈ ps, p.isSound = true) ∧
    ∀ opened rest, nests opened (ps ++ rest) = nests opened rest

theorem written_append (ps qs : List Part) : written (ps ++ qs) = written ps ++ written qs := by
  induction ps with
  | nil => simp [written]
  | cons p ps ih => simp [written, ih, String.append_assoc]

namespace Fragment

variable {s t : String}

theorem wellFormed (h : Fragment s) : WellFormed s := by
  obtain ⟨ps, rfl, sound, nest⟩ := h
  refine ⟨ps, rfl, sound, ?_⟩
  rw [← List.append_nil ps, nest]
  rfl

theorem of_eq (h : Fragment s) (eq : t = s) : Fragment t := eq ▸ h

theorem text (h : isPlain s = true) : Fragment s :=
  ⟨[.text s], by simp [written, Part.write], by simpa [Part.isSound] using h, fun _ _ => rfl⟩

theorem empty : Fragment "" := text rfl

theorem escaped (s : String) : Fragment (escape s) := text (isPlain_escape s)

theorem append (hs : Fragment s) (ht : Fragment t) : Fragment (s ++ t) := by
  obtain ⟨ps, rfl, sound, nest⟩ := hs
  obtain ⟨qs, rfl, sound', nest'⟩ := ht
  refine ⟨ps ++ qs, (written_append ps qs).symm, ?_, ?_⟩
  · intro p hp
    exact (List.mem_append.mp hp).elim (sound p) (sound' p)
  · intro opened rest
    rw [List.append_assoc, nest, nest']

theorem void (name : String) (as : Attrs) (hn : isName name = true) (hv : isVoid name = true)
    (ha : as.isSound = true) : Fragment ("<" ++ name ++ as.write ++ ">") := by
  refine ⟨[.opening name as], by simp [written, Part.write], ?_, ?_⟩
  · simp [Part.isSound, hn, ha]
  · intro opened rest
    simp [nests, hv]

theorem element (name : String) (as : Attrs) (hn : isName name = true) (hv : isVoid name = false)
    (ha : as.isSound = true) (hs : Fragment s) : Fragment (element name as.write s) := by
  obtain ⟨ps, rfl, sound, nest⟩ := hs
  refine ⟨.opening name as :: (ps ++ [.closing name]), ?_, ?_, ?_⟩
  · simp [Html.element, written, written_append, Part.write, String.append_assoc]
  · intro p hp
    simp only [List.mem_cons, List.mem_append, List.not_mem_nil, or_false] at hp
    rcases hp with rfl | inside | rfl
    · simp [Part.isSound, hn, ha]
    · exact sound p inside
    · exact hn
  · intro opened rest
    simp [nests, hv, nest]

end Fragment

/-- The text can stand between the name of an element and the end of its tag. -/
def Attributed (s : String) : Prop := ∃ as : Attrs, s = as.write ∧ as.isSound = true

theorem Fragment.void_of_attributed (name : String) {attrs : String} (hn : isName name = true)
    (hv : isVoid name = true) (ha : Attributed attrs) : Fragment ("<" ++ name ++ attrs ++ ">") := by
  obtain ⟨as, rfl, sound⟩ := ha
  exact .void name as hn hv sound

theorem Fragment.element_of_attributed (name : String) {attrs s : String} (hn : isName name = true)
    (hv : isVoid name = false) (ha : Attributed attrs) (hs : Fragment s) :
    Fragment (Html.element name attrs s) := by
  obtain ⟨as, rfl, sound⟩ := ha
  exact .element name as hn hv sound hs

/-- Every key is a text that can stand as the name of an attribute. -/
def Nameable (r : Record) : Prop := ∀ e ∈ r, ∃ s, e.1 = .str s ∧ isName s = true

theorem Nameable.named {r : Record} (h : Nameable r) : r.Named := fun e he =>
  (h e he).imp fun _ hs => hs.1

theorem Nameable.merge {r s : Record} (hr : Nameable r) (hs : Nameable s) :
    Nameable (r.merge s) := by
  intro e he
  exact (Record.mem_merge hs.named he).elim (hs e) (hr e)

theorem attributes_cons (k v : Value) (r : Record) :
    attributes ((k, v) :: r) = formatAttribute k v ++ attributes r := by
  rw [attributes, List.map_cons, String.join_cons, attributes]

theorem attributes_append (r s : Record) : attributes (r ++ s) = attributes r ++ attributes s := by
  induction r with
  | nil => exact String.empty_append.symm
  | cons e r ih => rw [List.cons_append, attributes_cons, attributes_cons, ih, String.append_assoc]

/-- The attributes that an entry of a record gives. -/
def attrOf (name : String) : Value → Attrs
  | .null | .bool false | .list [] => []
  | .bool true => [(name, none)]
  | v => [(name, some (escape (attributeText v)))]

/-- The attributes that a record gives. -/
def attrList (r : Record) : Attrs := r.flatMap fun e => attrOf e.1.text e.2

theorem formatAttribute_eq_write (key v : Value) : formatAttribute key v = (attrOf key.text v).write := by
  unfold formatAttribute attrOf
  split <;> simp [Attrs.write]

theorem attributes_eq_write (r : Record) : attributes r = (attrList r).write := by
  induction r with
  | nil => rfl
  | cons e r ih =>
      rw [attributes_cons, formatAttribute_eq_write, ih, ← Attrs.write_append]
      rfl

theorem isSound_attrOf {name : String} (hn : isName name = true) (v : Value) :
    (attrOf name v).isSound = true := by
  unfold attrOf
  split
  · rfl
  · rfl
  · rfl
  · exact Attrs.isSound_bare hn rfl
  · exact Attrs.isSound_value hn (isPlain_escape _) rfl

theorem isSound_attrList {r : Record} (h : Nameable r) : (attrList r).isSound = true := by
  induction r with
  | nil => rfl
  | cons e r ih =>
      obtain ⟨⟨name, key, hn⟩, later⟩ := List.forall_mem_cons.mp h
      have text : e.1.text = name := by rw [key]; rfl
      rw [attrList, List.flatMap_cons, text]
      exact Attrs.isSound_append (isSound_attrOf hn e.2) (ih later)

/-- Whatever the values are, nameable attributes are sound when they are written. -/
theorem attributes_attributed {r : Record} (h : Nameable r) : Attributed (attributes r) :=
  ⟨attrList r, attributes_eq_write r, isSound_attrList h⟩

end NoteMarkup.Html
