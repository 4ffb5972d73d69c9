/-!
Sets of characters given by ranges of code points.
-/

namespace NoteMarkup.Text

/-- A set of code points as closed ranges. -/
abbrev Ranges := List (Nat × Nat)

/-- Whether some range holds the code point. -/
def Ranges.covers (rs : Ranges) (n : Nat) : Bool :=
  rs.any fun r => r.1 ≤ n && n ≤ r.2

end NoteMarkup.Text
