import NoteMarkup.Html.Escape

/-! Text that escaping leaves as it is, and reading escaped text back. -/

namespace NoteMarkup.Html

theorem escapeChars_eq_self {s : List Char} (h : ∀ c ∈ s, escapeChar c = [c]) :
    escapeChars s = s := by
  induction s with
  | nil => rfl
  | cons c s ih =>
      obtain ⟨first, later⟩ := List.forall_mem_cons.mp h
      change escapeChar c ++ escapeChars s = c :: s
      rw [first, ih later]
      rfl

/-- The text with each of the five escapes replaced by the character that it stands for. -/
def unescapedChars : List Char → List Char
  | '&' :: 'a' :: 'm' :: 'p' :: ';' :: s => '&' :: unescapedChars s
  | '&' :: 'l' :: 't' :: ';' :: s => '<' :: unescapedChars s
  | '&' :: 'g' :: 't' :: ';' :: s => '>' :: unescapedChars s
  | '&' :: 'q' :: 'u' :: 'o' :: 't' :: ';' :: s => '"' :: unescapedChars s
  | '&' :: '#' :: 'x' :: '2' :: '7' :: ';' :: s => '\'' :: unescapedChars s
  | c :: s => c :: unescapedChars s
  | [] => []

def unescaped (s : String) : String := String.ofList (unescapedChars s.toList)

theorem unescapedChars_cons {c : Char} (h : c ≠ '&') (s : List Char) :
    unescapedChars (c :: s) = c :: unescapedChars s := by
  simp [unescapedChars, h]

theorem unescapedChars_escapeChar (c : Char) (s : List Char) :
    unescapedChars (escapeChar c ++ s) = c :: unescapedChars s := by
  simp only [escapeChar, beq_iff_eq]
  split
  · next ampersand => rw [ampersand]; rfl
  split
  · next less => rw [less]; rfl
  split
  · next greater => rw [greater]; rfl
  split
  · next quote => rw [quote]; rfl
  split
  · next apostrophe => rw [apostrophe]; rfl
  · next plain _ _ _ _ => exact unescapedChars_cons plain s

theorem unescapedChars_append (s rest : List Char) :
    unescapedChars (escapeChars s ++ rest) = s ++ unescapedChars rest := by
  induction s with
  | nil => rfl
  | cons c s ih =>
      calc unescapedChars (escapeChars (c :: s) ++ rest)
          = unescapedChars (escapeChar c ++ (escapeChars s ++ rest)) := by
            rw [← List.append_assoc]
            rfl
        _ = c :: unescapedChars (escapeChars s ++ rest) := unescapedChars_escapeChar c _
        _ = c :: s ++ unescapedChars rest := by rw [ih]; rfl

theorem unescaped_escape (s : String) : unescaped (escape s) = s := by
  have whole := unescapedChars_append s.toList []
  rw [List.append_nil] at whole
  rw [unescaped, escape, String.toList_ofList, whole]
  simp [unescapedChars]

end NoteMarkup.Html
