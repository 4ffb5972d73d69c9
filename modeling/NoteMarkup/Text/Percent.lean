import NoteMarkup.Text.Hex

/-!
Percent encoding: a character that an address cannot hold is written as its octets, each as `%` and
two hexadecimal digits.
-/

namespace NoteMarkup.Text

/-- A letter, a digit or one of the marks that no address gives a meaning to. -/
def isUnreserved (c : Char) : Bool := c.isAlphanum || c == '_' || c == '.' || c == '-' || c == '~'

/-- An octet in percent encoding. -/
def percentOctet (o : UInt8) : List Char := '%' :: (hexFixed 2 o.toNat).map Char.toUpper

/-- A character, in percent encoding unless it is unreserved or in `kept`. -/
def percentChar (kept : List Char) (c : Char) : List Char :=
  if isUnreserved c || kept.contains c then [c]
  else (String.singleton c).toUTF8.toList.flatMap percentOctet

/-- A text in percent encoding. -/
def percentEncode (kept : List Char) (s : List Char) : List Char := s.flatMap (percentChar kept)

end NoteMarkup.Text
