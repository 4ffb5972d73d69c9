/-!
What can go wrong when data are loaded from a text: the text does not follow the grammar of its
format, or it does and one of its scalars denotes no value.
-/

namespace NoteMarkup

/-- Why a scalar denotes no value of its type. -/
inductive ScalarFault where
  /-- A number or a date that does not exist; the message says why. -/
  | noValue (text : String)
  /-- A word that is no truth value. -/
  | notTruth (word : String)
  /-- A text that is no date. -/
  | notDate (text : String)
  /-- A number without digits. -/
  | empty
  /-- The number of a character is outside the range of numbers. -/
  | outOfRange
  /-- A date is not written as a text. -/
  | noText
deriving Repr, DecidableEq, Inhabited

/-- What a fault says. -/
def ScalarFault.message : ScalarFault → String
  | .noValue text => text
  | .notTruth word => word
  | .notDate text => "no date: " ++ text
  | .empty => "a number without digits"
  | .outOfRange => "the number of a character is too large"
  | .noText => "a date that is no text"

/-- Why data cannot be loaded. -/
inductive LoadFault where
  /-- The text does not follow the grammar of the format. -/
  | malformed (cause : String)
  | scalar (f : ScalarFault)
deriving Repr, DecidableEq, Inhabited

/-- A scalar has no value, as the text says. -/
def noValue {α : Type} (text : String) : Except LoadFault α := throw (.scalar (.noValue text))

/-- Fails with the message of a problem, if there is one. -/
def require (problem : Option String) : Except LoadFault Unit :=
  match problem with
  | some text => noValue text
  | none => .ok ()

end NoteMarkup
