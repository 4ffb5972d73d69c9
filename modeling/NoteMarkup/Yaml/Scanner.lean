import NoteMarkup.Yaml.Scalar

/-!
The tokens of a YAML text. What stands before a colon turns out to be a key only when the colon is
read; the token of the key is then put in front of it. So a token is certain once no key can begin
before it any more.
-/

namespace NoteMarkup.Yaml

namespace Scan

/-- A character of the name of a directive, an anchor or a tag handle. -/
def isNameChar (c : Char) : Bool := c.isAlphanum || c == '-' || c == '_'

/-- A character of the address of a tag, escapes apart. -/
def isAddressChar (c : Char) : Bool := c.isAlphanum || "-;/?:@&=+$,_.!~*'()[]".contains c

/-- Moves over blank lines and comments to the next token; `fuel` bounds the number of lines. -/
def skipBlank : (fuel : Nat) → Scan Unit
  | 0 => return ()
  | n + 1 => do
    if (← get).index == 0 && (← peek) == byteOrderMark then step
    discard <| takeRun (· == ' ')
    if (← peek) == '#' then discard <| takeRun (!isBreak ·)
    if isBreak (← peek) then
      discard lineBreak
      if (← get).flow == 0 then allowKey true
      skipBlank n

/-! ### Directives and tags -/

/-- A number of a version. -/
def versionNumber : Scan Nat := do
  let digits ← takeRun Char.isDigit
  if digits.isEmpty then fail "expected a digit"
  return digits.foldl (fun n c => n * 10 + (c.toNat - 48)) 0

/-- The octets of a run of percent escapes; `fuel` bounds their number. -/
def addressEscapes : (fuel : Nat) → (octets : List UInt8) → Scan (List UInt8)
  | 0, octets => return octets
  | n + 1, octets => do
    if (← peek) != '%' then return octets
    else
      step
      let digits := (← get).rest.take 2
      match if digits.length == 2 then Text.hexNumber? digits else none with
      | none => fail "expected URI escape sequence of 2 hexadecimal numbers"
      | some code =>
        forward 2
        addressEscapes n (octets ++ [code.toUInt8])

/-- The address of a tag; `fuel` bounds the number of its parts. -/
def tagAddress : (fuel : Nat) → (text : List Char) → Scan (List Char)
  | 0, text => return text
  | n + 1, text => do
    let run ← takeRun isAddressChar
    if (← peek) == '%' then
      let octets ← addressEscapes (← get).rest.length []
      match String.fromUTF8? ⟨octets.toArray⟩ with
      | none => fail "an escape is no text"
      | some s => tagAddress n (text ++ run ++ s.toList)
    else
      let text := text ++ run
      if text.isEmpty then fail "expected URI"
      return text

/-- The handle of a tag: a name between exclamation marks, or one mark before a space. -/
def tagHandle : Scan (List Char) := do
  if (← peek) != '!' then fail "expected '!'"
  step
  if (← peek) == ' ' then return ['!']
  else
    let name ← takeRun isNameChar
    if (← peek) != '!' then fail "expected '!'"
    step
    return '!' :: name ++ ['!']

/-- A directive. -/
def directive : Scan Directive := do
  step
  let name ← takeRun isNameChar
  if name.isEmpty then fail "expected alphabetic or numeric character"
  if !isSpaceEnd (← peek) then fail "expected alphabetic or numeric character"
  let d ← match String.ofList name with
    | "YAML" => do
      discard <| takeRun (· == ' ')
      let major ← versionNumber
      if (← peek) != '.' then fail "expected a digit or '.'"
      step
      let minor ← versionNumber
      if !isSpaceEnd (← peek) then fail "expected a digit or ' '"
      pure (Directive.version major minor)
    | "TAG" => do
      discard <| takeRun (· == ' ')
      let handle ← tagHandle
      if (← peek) != ' ' then fail "expected ' '"
      discard <| takeRun (· == ' ')
      let address ← tagAddress ((← get).rest.length + 1) []
      if !isSpaceEnd (← peek) then fail "expected ' '"
      pure (Directive.tag (String.ofList handle) (String.ofList address))
    | name => do
      discard <| takeRun (!isBreak ·)
      pure (Directive.other name)
  endLine
  return d

/-- Whether another exclamation mark stands in the word of a tag. -/
def hasHandle (s : List Char) : Bool := (s.takeWhile (!isSpaceEnd ·)).contains '!'

/-- A tag: complete between angle brackets, the mark alone, or a handle and a suffix. -/
def tag : Scan Token := do
  let next ← peekAt 1
  let t ← if next == '<' then do
      forward 2
      let suffix ← tagAddress ((← get).rest.length + 1) []
      if (← peek) != '>' then fail "expected '>'"
      step
      pure (Token.tag none (String.ofList suffix))
    else if isGapEnd next then do
      step
      pure (Token.tag none "!")
    else do
      let handle ← if hasHandle ((← get).rest.drop 1) then tagHandle else do
        step
        pure ['!']
      let suffix ← tagAddress ((← get).rest.length + 1) []
      pure (Token.tag (some (String.ofList handle)) (String.ofList suffix))
  if !isSpaceEnd (← peek) then fail "expected ' '"
  return t

/-- The name of an anchor or of a reference to one. -/
def anchorName : Scan String := do
  step
  let name ← takeRun isNameChar
  if name.isEmpty then fail "expected alphabetic or numeric character"
  let c ← peek
  if !(isGapEnd c || "?:,]\x7d%@\x60".contains c) then
    fail "expected alphabetic or numeric character"
  return String.ofList name

/-! ### Tokens -/

/-- Ends every open block. -/
def endBlocks : Scan Unit := do
  unwind (-1)
  dropKey
  allowKey false

/-- The mark of a document. -/
def documentMark (t : Token) : Scan Unit := do
  endBlocks
  forward 3
  emit t

/-- An opening bracket. -/
def openBracket (t : Token) : Scan Unit := do
  saveKey
  modify fun c => { c with flow := c.flow + 1 }
  allowKey true
  step
  emit t

/-- A closing bracket. -/
def closeBracket (t : Token) : Scan Unit := do
  dropKey
  modify fun c => { c with flow := c.flow - 1 }
  allowKey false
  step
  emit t

/-- Opens a block at this column, if it is further in, and emits its token. -/
def openBlock (t : Token) : Scan Unit := do
  if ← addIndent (← get).column then emit t

/-- The hyphen of an entry. -/
def blockEntry : Scan Unit := do
  let c ← get
  if c.flow == 0 then
    if !c.allowKey then fail "sequence entries are not allowed here"
    openBlock .blockSequenceStart
  allowKey true
  dropKey
  step
  emit .blockEntry

/-- The mark of a key. -/
def keyMark : Scan Unit := do
  let c ← get
  if c.flow == 0 then
    if !c.allowKey then fail "mapping keys are not allowed here"
    openBlock .blockMappingStart
  allowKey (c.flow == 0)
  dropKey
  step
  emit .key

/-- The colon of a value. What stands before it on the line is the key. -/
def valueMark : Scan Unit := do
  let c ← get
  match c.keys.lookup c.flow with
  | some k =>
    set { c with
      keys := c.keys.filter fun e => e.1 != c.flow
      tokens := c.tokens.insertIdxIfInBounds k.tokens .key
      allowKey := false }
    if c.flow == 0 then
      if ← addIndent k.column then
        modify fun c =>
          { c with tokens := c.tokens.insertIdxIfInBounds k.tokens .blockMappingStart }
  | none =>
    if c.flow == 0 then
      if !c.allowKey then fail "mapping values are not allowed here"
      openBlock .blockMappingStart
    allowKey (c.flow == 0)
    dropKey
  step
  emit .value

/-- A token that may begin a key. -/
def content (t : Scan Token) : Scan Unit := do
  saveKey
  allowKey false
  let t ← t
  emit t

/-- Whether a plain scalar may begin with a character before `next`. -/
def startsPlain (inFlow : Bool) (c next : Char) : Bool :=
  !(isGapEnd c || "-?:,[]\x7b\x7d#&*!|>'\"%@\x60".contains c) ||
    (!isGapEnd next && (c == '-' || (!inFlow && (c == '?' || c == ':'))))

/-- Reads the next token; gives false at the end of the text. -/
def token : Scan Bool := do
  skipBlank ((← get).rest.length + 1)
  dropStaleKeys
  unwind (← get).column
  let c ← peek
  let next ← peekAt 1
  let column := (← get).column
  let inFlow := (← get).flow != 0
  let scalar (s : Scan (List Char)) (plain : Bool) : Scan Unit :=
    content do return .scalar (String.ofList (← s)) plain
  let block (folded : Bool) : Scan Unit := do
    allowKey true
    dropKey
    let text ← blockScalar folded
    emit (.scalar (String.ofList text) false)
  if c == textEnd then
    endBlocks
    emit .streamEnd
    return false
  else
    if c == '%' && column == 0 then
      endBlocks
      emit (.directive (← directive))
    else if column == 0 && (← atDocumentMark '-') then documentMark .documentStart
    else if column == 0 && (← atDocumentMark '.') then documentMark .documentEnd
    else if c == '[' then openBracket .flowSequenceStart
    else if c == '\x7b' then openBracket .flowMappingStart
    else if c == ']' then closeBracket .flowSequenceEnd
    else if c == '\x7d' then closeBracket .flowMappingEnd
    else if c == ',' then
      allowKey true
      dropKey
      step
      emit .flowEntry
    else if c == '-' && isGapEnd next then blockEntry
    else if c == '?' && (inFlow || isGapEnd next) then keyMark
    else if c == ':' && (inFlow || isGapEnd next) then valueMark
    else if c == '*' then content do return .reference (← anchorName)
    else if c == '&' then content do return .anchor (← anchorName)
    else if c == '!' then content tag
    else if c == '|' && !inFlow then block false
    else if c == '>' && !inFlow then block true
    else if c == '\'' then scalar (quotedScalar false) false
    else if c == '"' then scalar (quotedScalar true) false
    else if startsPlain inFlow c next then scalar plainScalar true
    else fail "found character that cannot start any token"
    return true

end Scan

/-- The tokens of a text, and what ended them if it was not the end of the text. -/
structure Scanned where
  tokens : List Token
  fault : Option LoadFault

/-- The tokens before the first place where a key may have begun. -/
def Cursor.certain (c : Cursor) : List Token :=
  let possible := c.keys.filter fun e => !c.isStale e.2
  c.tokens.toList.take (possible.foldl (fun n e => min n e.2.tokens) c.tokens.size)

/-- Reads tokens from a place on to the end; `fuel` bounds their number. -/
def Cursor.scan : (fuel : Nat) → Cursor → Scanned
  | 0, c => ⟨c.tokens.toList, none⟩
  | n + 1, c =>
    match Scan.token.run c with
    | .ok (true, next) => next.scan n
    | .ok (false, last) => ⟨last.tokens.toList, none⟩
    | .error f => ⟨c.certain, some f⟩

/-- A character that a text may hold. -/
def isAllowed (c : Char) : Bool :=
  let n := c.toNat
  n == 9 || n == 10 || n == 13 || (32 ≤ n && n ≤ 126) || n == 0x85 ||
    (0xa0 ≤ n && n ≤ 0xfffd) || n ≥ 0x10000

/-- The tokens of a text. -/
def scan (text : List Char) : Scanned :=
  if text.all isAllowed then (Cursor.start text).scan (2 * text.length + 2)
  else ⟨[], some (.malformed "special characters are not allowed")⟩

end NoteMarkup.Yaml
