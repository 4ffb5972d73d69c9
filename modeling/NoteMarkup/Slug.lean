import NoteMarkup.Text.Blank
import NoteMarkup.Text.Case
import NoteMarkup.Text.Lines

/-!
Slugs: the forms of note paths and tags that stand in link targets.

A slug has no blank and none of `&`, `%`, `?`, `#`. A page slug drops the extension of a note and
calls the note `_index` of a folder `index`; a tag slug is in lower case.
-/

namespace NoteMarkup.Slug

open Text

/-- One character of a path segment in a slug. -/
def slugChar (c : Char) : List Char :=
  if isBlank c then ['-']
  else if c == '&' then ['-', 'a', 'n', 'd', '-']
  else if c == '%' then ['-', 'p', 'e', 'r', 'c', 'e', 'n', 't']
  else if c == '?' || c == '#' then []
  else [c]

/-- A path segment in a slug. -/
def slugSegment (s : List Char) : List Char := s.flatMap slugChar

/-- The text without one `/` at its end. -/
def dropEndSlash (s : List Char) : List Char :=
  if s.getLast? == some '/' then s.dropLast else s

/-- The text without one `/` at its start and one at its end. -/
def stripSlashes (s : List Char) : List Char :=
  match s with
  | '/' :: r => dropEndSlash r
  | r => dropEndSlash r

/-- A path with every segment in its slug form. -/
def slugPath (s : List Char) : List Char :=
  dropEndSlash (joinWith ['/'] ((splitAtChar '/' s).map slugSegment))

/-- The extension that starts here: a point and at least one letter or digit up to the end. -/
def extensionHere? : List Char → Option (List Char)
  | '.' :: r =>
    let ext := r.takeWhile Char.isAlphanum
    if !ext.isEmpty && atTextEnd (r.dropWhile Char.isAlphanum) then some ('.' :: ext) else none
  | _ => none

/-- The extension of a path, with its point. -/
def extension? : List Char → Option (List Char)
  | [] => none
  | c :: cs => (extensionHere? (c :: cs)).orElse fun _ => extension? cs

/-- The extension of a path, with its point. -/
def fileExtension? (path : String) : Option String := (extension? path.toList).map String.ofList

/-- A folder's own note is called `index`. -/
def renameIndex (slug : List Char) : List Char :=
  let own := "_index".toList
  if slug == own || ('/' :: own).isSuffixOf slug then
    slug.take (slug.length - own.length) ++ "index".toList
  else slug

/-- Extensions of notes and pages, which a page slug never keeps. -/
def pageExtensions : List (List Char) := [".md".toList, ".html".toList]

/-- The page slug of a path. `dropExtension` drops an extension of any kind. -/
def pageChars (path : List Char) (dropExtension : Bool) : List Char :=
  let path := stripSlashes path
  match extension? path with
  | none => renameIndex (slugPath path)
  | some ext =>
    let stem := path.take (path.length - ext.length)
    let kept := if dropExtension || pageExtensions.contains ext then [] else ext
    renameIndex (slugPath stem) ++ kept

/-- The page slug of a path. `dropExtension` drops an extension of any kind. -/
def page (path : String) (dropExtension : Bool) : String :=
  String.ofList (pageChars path.toList dropExtension)

/-- The slug of a link target: the extension of an attachment is kept. -/
def ofTarget (path : String) : String := page path false

/-- The slug of a tag value: every segment in slug form and lower case. -/
def tagChars (value : List Char) : List Char :=
  joinWith ['/'] ((splitAtChar '/' value).map fun s => lower (slugSegment s))

/-- The slug of a tag value. -/
def ofTag (value : String) : String := String.ofList (tagChars value.toList)

/-- The relative path from a page to the root of the site: one step up per folder. -/
def toRoot (slug : String) : String :=
  let parts := (splitAtChar '/' slug.toList).filter fun p => !p.isEmpty
  let ups := parts.dropLast.map fun _ => "..".toList
  if ups.isEmpty then "." else String.ofList (joinWith ['/'] ups)

/-- The text with its first character in upper case. -/
def capitalize (s : String) : String :=
  match s.toList with
  | [] => ""
  | c :: cs => String.ofList (upperChar c ++ cs)

end NoteMarkup.Slug
