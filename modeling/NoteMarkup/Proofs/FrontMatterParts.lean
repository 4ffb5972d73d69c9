import Mathlib.Data.List.TakeWhile
import NoteMarkup.Proofs.FrontMatter
import NoteMarkup.Proofs.Lines

/-! Front matter is cut off without loss. A text that has front matter is its opening line, the source of
the data, the closing line and the body, in this order, and its lines are the lines of these parts. What
is left of a text is decided before the data are loaded. -/

namespace NoteMarkup

namespace Text

/-- The first line of a text stays a line of its own before a beginning of the rest. -/
theorem linesFrom_eq_cons {line s first : List Char} {rest : List (List Char)}
    (h : linesFrom line s = first :: rest) :
    ∃ w t, s = w ++ t ∧ first = line.reverse ++ w ∧ rest = lines t ∧
      ∀ u, u <+: t → linesFrom line (w ++ u) = first :: lines u := by
  fun_induction linesFrom line s with
  | case1 line empty => cases h
  | case2 line more =>
      obtain ⟨rfl, rfl⟩ := List.cons.inj h
      refine ⟨[], [], rfl, by simp, rfl, fun u before => ?_⟩
      rw [List.prefix_nil.mp before, List.append_nil, linesFrom, if_neg more]
      rfl
  | case3 line cs ih =>
      obtain ⟨rfl, rfl⟩ := List.cons.inj h
      exact ⟨['\r', '\n'], cs, rfl, by simp, rfl, fun u before => rfl⟩
  | case4 line c cs single ends ih =>
      obtain ⟨rfl, rfl⟩ := List.cons.inj h
      refine ⟨[c], cs, rfl, by simp, rfl, fun u before => ?_⟩
      -- the rest does not start with the second half of a pair, so no beginning of it does
      have unpaired : ∀ v, c = '\r' → u = '\n' :: v → False := by
        rintro v same rfl
        obtain ⟨w, whole⟩ := before
        exact single (v ++ w) same whole.symm
      rw [List.singleton_append, linesFrom.eq_3 line c u unpaired, if_pos ends]
      rfl
  | case5 line c cs single goesOn ih =>
      obtain ⟨w, t, rfl, rfl, rfl, again⟩ := ih h
      refine ⟨c :: w, t, rfl, by simp, rfl, fun u before => ?_⟩
      have other : c ≠ '\r' := ne_of_not_lineEnd (by simpa using goesOn) rfl
      rw [List.cons_append, linesFrom.eq_3 line c (w ++ u) fun _ same _ => other same, if_neg goesOn]
      exact again u before

theorem lines_eq_cons {s first : List Char} {rest : List (List Char)} (h : lines s = first :: rest) :
    ∃ t, s = first ++ t ∧ rest = lines t ∧ ∀ u, u <+: t → lines (first ++ u) = first :: lines u := by
  obtain ⟨w, t, whole, rfl, later, again⟩ := linesFrom_eq_cons h
  exact ⟨t, whole, later, again⟩

/-- Of a text that is cut between two lines, both pieces keep their lines. -/
theorem lines_eq_append {s : List Char} {front back : List (List Char)} (h : lines s = front ++ back) :
    lines front.flatten = front ∧ lines back.flatten = back := by
  induction front generalizing s with
  | nil =>
      rw [List.nil_append] at h
      exact ⟨rfl, by rw [← h, flatten_lines]⟩
  | cons first front ih =>
      rw [List.cons_append] at h
      obtain ⟨t, -, later, again⟩ := lines_eq_cons h
      obtain ⟨inFront, inBack⟩ := ih later.symm
      have before : front.flatten <+: t := by
        refine ⟨back.flatten, ?_⟩
        rw [← List.flatten_append, later, flatten_lines]
      refine ⟨?_, inBack⟩
      rw [List.flatten_cons, again _ before, inFront]

end Text

namespace FrontMatter

open Log

variable {s : List Char} {p : Parts}

/-- The text starts with a line of hyphens, and a later line holds hyphens alone. -/
def Fences (s : List Char) : Prop :=
  ("---\n".toList <+: s ∨ "---\r\n".toList <+: s) ∧
    ∃ line ∈ (Text.lines s).tail, Text.trim line = "---".toList

/-- The parts are those of the text: nothing is lost and no line is cut, and the closing line is the
first one that can close. -/
structure Parted (s : List Char) (p : Parts) : Prop where
  whole : p.opening ++ p.source ++ p.closing ++ p.body = s
  lines : Text.lines s = p.opening :: (Text.lines p.source ++ p.closing :: Text.lines p.body)
  opening : p.opening = "---\n".toList ∨ p.opening = "---\r\n".toList
  source : ∀ line ∈ Text.lines p.source, Text.trim line ≠ "---".toList
  closing : Text.trim p.closing = "---".toList

theorem opens_iff {line : List Char} :
    opens line = true ↔ line = "---\n".toList ∨ line = "---\r\n".toList := by
  simp [opens, fence]

theorem closes_iff {line : List Char} : closes line = true ↔ Text.trim line = "---".toList := by
  simp [closes, fence]

/-- A text starts with an opening line just if its first line is one. -/
theorem opening_prefix_iff :
    ("---\n".toList <+: s ∨ "---\r\n".toList <+: s) ↔
      ∃ first rest, Text.lines s = first :: rest ∧ opens first = true := by
  constructor
  · have free : ∀ c ∈ fence, Text.isLineEnd c = false := by simp [fence, Text.isLineEnd]
    rintro (⟨t, rfl⟩ | ⟨t, rfl⟩)
    · exact ⟨_, _, Text.lines_append free (c := '\n') (by decide) (by decide) t, by decide⟩
    · exact ⟨"---\r\n".toList, Text.lines t, rfl, by decide⟩
  · rintro ⟨first, rest, hlines, opened⟩
    obtain ⟨t, rfl, -⟩ := Text.lines_eq_cons hlines
    exact (opens_iff.mp opened).imp (fun same => ⟨t, by rw [same]⟩) fun same => ⟨t, by rw [same]⟩

theorem Fenced.parted (h : Fenced s p) : Parted s p := by
  have whole := h.whole
  obtain ⟨hlines, opened, first, closed⟩ := h
  rename_i opening closing inside after
  have cut : Text.lines s = [opening] ++ (inside ++ closing :: after) := hlines
  obtain ⟨source, rest⟩ := Text.lines_eq_append (Text.lines_eq_append cut).2
  have cutAgain : Text.lines (closing :: after).flatten = [closing] ++ after := rest
  have body := (Text.lines_eq_append cutAgain).2
  refine ⟨whole, ?_, opens_iff.mp opened, ?_, closes_iff.mp closed⟩
  · rw [source, body, hlines]
  · intro line member closes
    rw [source] at member
    have goesOn := first line member
    rw [closes_iff.mpr closes] at goesOn
    cases goesOn

theorem Parted.fenced (h : Parted s p) : Fenced s p := by
  have stays : ∀ line ∈ Text.lines p.source, closes line = false := fun line member =>
    Bool.eq_false_iff.mpr (mt closes_iff.mp (h.source line member))
  have fenced := Fenced.intro h.lines (opens_iff.mpr h.opening) stays (closes_iff.mpr h.closing)
  rwa [Text.flatten_lines, Text.flatten_lines] at fenced

theorem parted_iff : Parted s p ↔ split? s = some p :=
  ⟨fun h => split?_eq_some_iff.mpr h.fenced, fun h => (split?_eq_some_iff.mp h).parted⟩

theorem exists_parted_iff : (∃ p, Parted s p) ↔ Fences s := by
  constructor
  · rintro ⟨p, parted⟩
    refine ⟨opening_prefix_iff.mpr ⟨_, _, parted.lines, opens_iff.mpr parted.opening⟩, p.closing, ?_,
      parted.closing⟩
    rw [parted.lines]
    simp
  · rintro ⟨opened, line, later, closed⟩
    obtain ⟨first, rest, hlines, opens⟩ := opening_prefix_iff.mp opened
    rw [hlines, List.tail_cons] at later
    simp only [parted_iff]
    unfold split?
    rw [hlines]
    dsimp only
    rw [if_neg (by simp [opens])]
    split
    · next none =>
        have stays := List.dropWhile_eq_nil_iff.mp none line later
        rw [closes_iff.mpr closed] at stays
        cases stays
    · exact ⟨_, rfl⟩

variable {load : Loader} {log : Records}

theorem extract_unfenced (plain : ¬Fences s) (load : Loader) (log : Records) :
    (extract load s).run log = (.ok (s, []), log) := by
  have whole : split? s = none := by
    refine Option.eq_none_iff_forall_ne_some.mpr fun p parts => ?_
    exact plain (exists_parted_iff.mp ⟨p, parted_iff.mpr parts⟩)
  rw [extract, whole]
  rfl

theorem extract_parted (parted : Parted s p) (sound : ∀ f, load p.source ≠ .error (.scalar f)) :
    ∃ r written, Found load p.source r written ∧
      (extract load s).run log = (.ok (p.body, r), log ++ written) := by
  obtain ⟨r, written, found, run⟩ := data_found sound log
  refine ⟨r, written, found, ?_⟩
  rw [extract, parted_iff.mp parted]
  dsimp only
  rw [Log.run_bind, run]
  rfl

/-- A text without front matter is left as it is. A text with front matter is its parts, and what is left
is the body, whatever the loader makes of the source. Something is left just if the loader does not come
upon a scalar without a value in the source. -/
theorem body_left_iff (s : List Char) :
    ((∃ p, Parted s p) ↔ Fences s) ∧
    (¬Fences s → ∀ load log, (extract load s).run log = (.ok (s, []), log)) ∧
    ∀ p, Parted s p → ∀ load log,
      ((∃ r written, Found load p.source r written ∧
          (extract load s).run log = (.ok (p.body, r), log ++ written)) ↔
        ∀ f, load p.source ≠ .error (.scalar f)) ∧
      ∀ f, load p.source = .error (.scalar f) →
        (extract load s).run log = (.error (.scalar f), log) := by
  refine ⟨exists_parted_iff, extract_unfenced, fun p parted load log => ⟨⟨?_, ?_⟩, ?_⟩⟩
  · rintro ⟨r, written, -, run⟩ f failed
    rw [extract_scalar parted.fenced failed] at run
    cases (Prod.mk.inj run).1
  · exact extract_parted parted
  · exact fun f failed => extract_scalar parted.fenced failed log

/-- The closing line may be indented; a note whose block is not closed keeps it. -/
theorem indentedFence_parted :
    Parted "---\r\ndraft\n  ---\nbody".toList
      ⟨"---\r\n".toList, "draft\n".toList, "  ---\n".toList, "body".toList⟩ ∧
    (∃ r written, Found Note.scalarLoader "draft\n".toList r written ∧
      (extract Note.scalarLoader "---\r\ndraft\n  ---\nbody".toList).run [] =
        (.ok ("body".toList, r), written)) ∧
    (extract Note.scalarLoader "---\nbody".toList).run [] = (.ok ("---\nbody".toList, []), []) := by
  have parted : Parted "---\r\ndraft\n  ---\nbody".toList
      ⟨"---\r\n".toList, "draft\n".toList, "  ---\n".toList, "body".toList⟩ :=
    parted_iff.mpr (by decide)
  have loaded : Note.scalarLoader "draft\n".toList = .ok (.str "draft") := rfl
  have plain : ¬Fences "---\nbody".toList := by
    rintro fences
    obtain ⟨p, parts⟩ := exists_parted_iff.mpr fences
    have whole : split? "---\nbody".toList = none := by decide
    rw [parted_iff.mp parts] at whole
    cases whole
  refine ⟨parted, ?_, (body_left_iff _).2.1 plain _ _⟩
  refine (((body_left_iff _).2.2 _ parted Note.scalarLoader []).1).mpr fun f failed => ?_
  rw [loaded] at failed
  cases failed

/-- Of a note with a date that does not exist nothing is left, though its front matter is closed. -/
theorem impossibleDate_bodiless :
    Fences "---\n2024-13-45\n---\nx".toList ∧
      ∀ out log, (extract Note.scalarLoader "---\n2024-13-45\n---\nx".toList).run [] ≠ (.ok out, log) := by
  have parted : Parted "---\n2024-13-45\n---\nx".toList
      ⟨"---\n".toList, "2024-13-45\n".toList, "---\n".toList, ['x']⟩ := parted_iff.mpr (by decide)
  refine ⟨exists_parted_iff.mp ⟨_, parted⟩, fun out log run => ?_⟩
  rw [extract_scalar parted.fenced rfl] at run
  cases (Prod.mk.inj run).1

end FrontMatter

end NoteMarkup
