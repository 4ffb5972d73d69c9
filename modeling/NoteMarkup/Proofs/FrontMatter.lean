import NoteMarkup.Note
import NoteMarkup.Proofs.Run
import NoteMarkup.Proofs.TokenTree

/-! Front matter. It stands between a first line of hyphens and the next line of hyphens; the rest of
the note is read whatever a loader makes of it. Only a scalar without a value ends the reading. -/

namespace NoteMarkup

namespace Text

theorem flatten_linesFrom (line s : List Char) :
    (linesFrom line s).flatten = line.reverse ++ s := by
  fun_induction linesFrom line s with
  | case1 line empty => simp [List.isEmpty_iff.mp empty]
  | case2 line more => simp
  | case3 line cs ih => simp [ih]
  | case4 line c cs _ ends ih => simp [ih]
  | case5 line c cs _ goesOn ih => simp [ih]

theorem flatten_lines (s : List Char) : (lines s).flatten = s := flatten_linesFrom [] s

end Text

namespace FrontMatter

open Log

/-- A text starts with front matter: after an opening line stand lines that do not close it, then the
first one that does. -/
inductive Fenced : List Char → Parts → Prop where
  | intro {s opening closing : List Char} {inside after : List (List Char)}
      (lines : Text.lines s = opening :: (inside ++ closing :: after)) (opens : opens opening = true)
      (first : ∀ line ∈ inside, closes line = false) (closes : closes closing = true) :
      Fenced s ⟨opening, inside.flatten, closing, after.flatten⟩

/-- A line that closes front matter comes first in what is left after the lines that do not. -/
theorem dropWhile_closes {rest after : List (List Char)} {closing : List Char}
    (h : rest.dropWhile (!closes ·) = closing :: after) :
    rest = rest.takeWhile (!closes ·) ++ closing :: after ∧ closes closing = true := by
  have stop : ¬(!closes closing) = true := by
    have head := List.head?_dropWhile_not (!closes ·) rest
    rw [h] at head
    simpa using head
  refine ⟨?_, by simpa using stop⟩
  rw [← h]
  exact (List.takeWhile_append_dropWhile).symm

theorem split?_eq_some_iff {s : List Char} {p : Parts} : split? s = some p ↔ Fenced s p := by
  constructor
  · intro h
    unfold split? at h
    split at h
    · cases h
    · next opening rest hlines =>
        by_cases opened : opens opening = true
        · rw [if_neg (by simp [opened])] at h
          split at h
          · cases h
          · next closing after found =>
              obtain ⟨whole, closed⟩ := dropWhile_closes found
              obtain rfl := Option.some.inj h
              rw [whole] at hlines
              refine .intro hlines opened ?_ closed
              intro line inside
              simpa using List.all_eq_true.mp List.all_takeWhile line inside
        · rw [if_pos (by simpa using opened)] at h
          cases h
  · rintro ⟨hlines, opened, first, closed⟩
    rename_i opening closing inside after
    have among : ∀ line ∈ inside, (!closes line) = true := by simpa using first
    have stop : ¬(!closes closing) = true := by simp [closed]
    have found : (inside ++ closing :: after).dropWhile (!closes ·) = closing :: after := by
      rw [List.dropWhile_append_of_pos among, List.dropWhile_cons, if_neg stop]
    have before : (inside ++ closing :: after).takeWhile (!closes ·) = inside := by
      rw [List.takeWhile_append_of_pos among, List.takeWhile_cons, if_neg stop, List.append_nil]
    rw [split?, hlines]
    dsimp only
    rw [if_neg (by simp [opened]), found, before]

theorem Fenced.whole {s : List Char} {p : Parts} (h : Fenced s p) :
    p.opening ++ p.source ++ p.closing ++ p.body = s := by
  obtain ⟨lines, _, _, _⟩ := h
  rw [← Text.flatten_lines s, lines]
  simp

/-- What a loader finds in the text of front matter, and the records about it. Data that cannot be
loaded, or that are no map, count as none. -/
inductive Found (load : Loader) (source : List Char) : Record → Records → Prop where
  | map {r : Record} (h : load source = .ok (.map r)) : Found load source r []
  | nothing (h : load source = .ok .null) : Found load source [] []
  | malformed {cause : String} (h : load source = .error (.malformed cause)) :
      Found load source [] [⟨warning, logger, "Ignoring malformed front matter: ", some cause⟩]
  | other {v : Value} (h : load source = .ok v) (noMap : ∀ r, v ≠ .map r) (some : v ≠ .null) :
      Found load source []
        [⟨warning, logger, "Ignoring front matter that is not a mapping (" ++ v.typeName ++ ")", none⟩]

theorem data_scalar {load : Loader} {source : List Char} {f : ScalarFault}
    (failed : load source = .error (.scalar f)) (log : Records) :
    (data load source).run log = (.error (.scalar f), log) := by
  rw [data, failed]
  rfl

theorem data_found {load : Loader} {source : List Char}
    (sound : ∀ f, load source ≠ .error (.scalar f)) (log : Records) :
    ∃ r written, Found load source r written ∧
      (data load source).run log = (.ok r, log ++ written) := by
  unfold data
  cases loaded : load source with
  | error f =>
      cases f with
      | malformed cause => exact ⟨_, _, .malformed loaded, rfl⟩
      | scalar f => exact absurd loaded (sound f)
  | ok v =>
      have silent : log ++ [] = log := List.append_nil log
      cases v with
      | map r => exact ⟨r, [], .map loaded, by rw [silent]; rfl⟩
      | null => exact ⟨[], [], .nothing loaded, by rw [silent]; rfl⟩
      | _ => exact ⟨[], _, .other loaded nofun nofun, rfl⟩

/-- What is taken from a text: its body, the data, and the records about them. -/
inductive Taken (load : Loader) (s : List Char) : List Char → Record → Records → Prop where
  | plain (h : ∀ p, ¬Fenced s p) : Taken load s s [] []
  | fenced {p : Parts} {r : Record} {written : Records} (h : Fenced s p)
      (found : Found load p.source r written) : Taken load s p.body r written

theorem extract_scalar {load : Loader} {s : List Char} {p : Parts} {f : ScalarFault}
    (fenced : Fenced s p) (failed : load p.source = .error (.scalar f)) (log : Records) :
    (extract load s).run log = (.error (.scalar f), log) := by
  rw [extract, split?_eq_some_iff.mpr fenced]
  dsimp only
  rw [Log.run_bind, data_scalar failed]
  rfl

theorem extract_taken {load : Loader} {s : List Char}
    (sound : ∀ p f, Fenced s p → load p.source ≠ .error (.scalar f)) (log : Records) :
    ∃ body r written, Taken load s body r written ∧
      (extract load s).run log = (.ok (body, r), log ++ written) := by
  unfold extract
  cases parts : split? s with
  | none =>
      refine ⟨s, [], [], .plain ?_, by rw [List.append_nil]; rfl⟩
      intro p fenced
      rw [split?_eq_some_iff.mpr fenced] at parts
      cases parts
  | some p =>
      have fenced := split?_eq_some_iff.mp parts
      obtain ⟨r, written, found, run⟩ := data_found (fun f => sound p f fenced) log
      refine ⟨p.body, r, written, .fenced fenced found, ?_⟩
      dsimp only
      rw [Log.run_bind, run]
      rfl

end FrontMatter

namespace Note

open Log FrontMatter

theorem parseWith_scalar {load : Loader} {text : String} {p : Parts} {f : ScalarFault}
    (fenced : Fenced text.toList p) (failed : load p.source = .error (.scalar f))
    (options : Options) (log : Records) :
    (parseWith load options text).run log = (.error (.scalar f), log) := by
  rw [parseWith, Log.run_bind, extract_scalar fenced failed]
  rfl

/-- The document of a text: its children are the tree of the text without front matter, and what the
loader finds is on it. -/
def Reads (load : Loader) (options : Options) (text : String) (n : Node) (written : Records) : Prop :=
  ∃ body data nodes, Taken load text.toList body data written ∧
    Node.ofBlockTokens (Markdown.tokensOf (dialect options) body) = .ok nodes ∧
    n = .branch .document nodes data

theorem parseWith_reads {load : Loader} {text : String}
    (sound : ∀ p f, Fenced text.toList p → load p.source ≠ .error (.scalar f))
    (options : Options) (log : Records) :
    ∃ n written, Reads load options text n written ∧
      (parseWith load options text).run log = (.ok n, log ++ written) := by
  obtain ⟨body, data, written, taken, run⟩ := extract_taken sound log
  obtain ⟨nodes, made⟩ := Node.ofBlockTokens_tokensOf (dialect options) body
  refine ⟨_, written, ⟨body, data, nodes, taken, made, rfl⟩, ?_⟩
  rw [parseWith, Log.run_bind, run]
  dsimp only
  rw [made]
  rfl

/-- A text is read, whatever a loader makes of its front matter, just if the loader does not come upon a
scalar without a value. Such a scalar ends the reading. -/
theorem reads_iff (load : Loader) (options : Options) (text : String) (log : Records) :
    ((∃ n written, Reads load options text n written ∧
        (parseWith load options text).run log = (.ok n, log ++ written)) ↔
      ∀ p f, Fenced text.toList p → load p.source ≠ .error (.scalar f)) ∧
    ∀ p f, Fenced text.toList p → load p.source = .error (.scalar f) →
      (parseWith load options text).run log = (.error (.scalar f), log) := by
  refine ⟨⟨?_, fun sound => parseWith_reads sound options log⟩,
    fun p f fenced failed => parseWith_scalar fenced failed options log⟩
  rintro ⟨n, written, -, run⟩ p f fenced failed
  rw [parseWith_scalar fenced failed] at run
  cases (Prod.mk.inj run).1

/-- The loader of a text that is one plain scalar. -/
def scalarLoader : Loader := fun source =>
  (Yaml.Node.scalar (Yaml.implicitTag (Text.chomp source)) (String.ofList (Text.chomp source))).value

/-- A date that does not exist ends the reading of a note. -/
theorem impossibleDate_unread :
    (parseWith scalarLoader .defaults "---\n2024-13-45\n---\nx").run [] =
      (.error (.scalar (.noValue "month must be in 1..12")), []) := by
  have fenced : Fenced "---\n2024-13-45\n---\nx".toList
      ⟨"---\n".toList, "2024-13-45\n".toList, "---\n".toList, ['x']⟩ :=
    split?_eq_some_iff.mp (by decide)
  exact parseWith_scalar fenced rfl .defaults []

end Note

end NoteMarkup
