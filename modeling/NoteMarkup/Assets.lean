import NoteMarkup.Options
import NoteMarkup.Error
import NoteMarkup.Log

/-!
Scripts and styles that a page with rendered notes needs: the script that folds callouts, the one
that remembers the state of tasks, and the script and the style of diagrams.
-/

namespace NoteMarkup.Assets

/-- The script that folds callouts. -/
def calloutText : String :=
  "\n".intercalate [
    "function toggleCallout() \x7b",
    "  const outerBlock = this.parentElement",
    "  outerBlock.classList.toggle(\"is-collapsed\")",
    "  const collapsed = outerBlock.classList.contains(\"is-collapsed\")",
    "  const content = outerBlock.getElementsByClassName(\"callout-content\")[0]",
    "  if (content) \x7b",
    "    content.style.gridTemplateRows = collapsed ? \"0fr\" : \"1fr\"",
    "  \x7d",
    "\x7d",
    "",
    "function setupCallout() \x7b",
    "  const collapsible = document.getElementsByClassName(\"callout is-collapsible\")",
    "  for (const div of collapsible) \x7b",
    "    const title = div.getElementsByClassName(\"callout-title\")[0]",
    "    const content = div.getElementsByClassName(\"callout-content\")[0]",
    "    if (!title || !content) continue",
    "",
    "    title.addEventListener(\"click\", toggleCallout)",
    "    const collapsed = div.classList.contains(\"is-collapsed\")",
    "    content.style.gridTemplateRows = collapsed ? \"0fr\" : \"1fr\"",
    "  \x7d",
    "\x7d",
    "",
    "document.addEventListener(\"DOMContentLoaded\", setupCallout)",
    ""]

/-- The script that remembers the state of tasks. -/
def checkboxText : String :=
  "\n".intercalate [
    "const checkboxId = (index) => `$\x7bwindow.location.pathname\x7d-checkbox-$\x7bindex\x7d`",
    "",
    "document.addEventListener(\"DOMContentLoaded\", () => \x7b",
    "  const checkboxes = document.querySelectorAll(\"input.checkbox-toggle\")",
    "  checkboxes.forEach((el, index) => \x7b",
    "    const elId = checkboxId(index)",
    "",
    "    el.addEventListener(\"change\", (e) => \x7b",
    "      localStorage.setItem(elId, e.target.checked ? \"true\" : \"false\")",
    "    \x7d)",
    "",
    "    const stored = localStorage.getItem(elId)",
    "    if (stored !== null) \x7b",
    "      el.checked = stored === \"true\"",
    "    \x7d",
    "  \x7d)",
    "\x7d)",
    ""]

/-- The style of diagrams. -/
def mermaidStyleText : String :=
  "\n".intercalate [
    "pre:has(> code.mermaid) \x7b",
    "  position: relative;",
    "  border: none;",
    "  background: none;",
    "\x7d",
    "",
    "pre:has(> code.mermaid) .mermaid-copy \x7b",
    "  position: absolute;",
    "  top: 0.5rem;",
    "  right: 0.5rem;",
    "  opacity: 0;",
    "  transition: opacity 0.2s ease;",
    "\x7d",
    "",
    "pre:has(> code.mermaid):hover .mermaid-copy \x7b",
    "  opacity: 1;",
    "\x7d",
    "",
    "code.mermaid \x7b",
    "  display: flex;",
    "  justify-content: center;",
    "\x7d",
    ""]

/-- The script that draws diagrams. -/
def mermaidText : String :=
  "\n".intercalate [
    "const mermaidImport = \"https://cdnjs.cloudflare.com" ++
      "/ajax/libs/mermaid/11.4.0/mermaid.esm.min.mjs\"",
    "",
    "async function renderMermaid() \x7b",
    "  const nodes = document.querySelectorAll(\"code.mermaid\")",
    "  if (nodes.length === 0) return",
    "",
    "  const \x7b default: mermaid \x7d = await import(mermaidImport)",
    "  const darkMode = document.documentElement.getAttribute(\"saved-theme\") === \"dark\"",
    "  mermaid.initialize(\x7b startOnLoad: false, securityLevel: \"loose\", " ++
      "theme: darkMode ? \"dark\" : \"default\" \x7d)",
    "",
    "  for (const node of nodes) \x7b",
    "    node.dataset.original = node.textContent",
    "    const pre = node.parentElement",
    "    const copy = document.createElement(\"button\")",
    "    copy.className = \"mermaid-copy\"",
    "    copy.type = \"button\"",
    "    copy.textContent = \"Copy\"",
    "    copy.addEventListener(\"click\", () => \x7b",
    "      navigator.clipboard.writeText(JSON.parse(node.dataset.clipboard))",
    "    \x7d)",
    "    pre.appendChild(copy)",
    "  \x7d",
    "",
    "  await mermaid.run(\x7b nodes \x7d)",
    "\x7d",
    "",
    "document.addEventListener(\"DOMContentLoaded\", renderMermaid)",
    ""]

/-- The bundled files by name. -/
def files : List (String × String) :=
  [("callout.inline.js", calloutText), ("checkbox.inline.js", checkboxText),
   ("mermaid.inline.css", mermaidStyleText), ("mermaid.inline.js", mermaidText)]

/-- The text of a bundled file. -/
def load (name : String) : Except Error String :=
  match files.lookup name with
  | some t => .ok t
  | none => .error (.noAsset name)

/-- A script for the page. -/
structure Script where
  name : String
  text : String
  isModule : Bool

/-- The element of a script. -/
def Script.toHtml (s : Script) : String :=
  "<script" ++ (if s.isModule then " type=\"module\"" else "") ++ ">" ++ s.text ++ "</script>"

/-- A style for the page. -/
structure Style where
  name : String
  text : String

/-- The element of a style. -/
def Style.toHtml (s : Style) : String := "<style>" ++ s.text ++ "</style>"

/-- What a page needs. Every script runs when the page is loaded. -/
structure Resources where
  scripts : List Script
  styles : List Style

/-- When the host runs the scripts. -/
def loadTime : String := "afterDOMReady"

/-- The elements, styles first. -/
def Resources.toHtml (r : Resources) : String :=
  "\n".intercalate (r.styles.map Style.toHtml ++ r.scripts.map Script.toHtml)

/-- What a page needs under the options. -/
def Resources.ofOptions (options : Options) : Resources where
  scripts :=
    (if options.enabled .enableCheckbox then [⟨"checkbox.inline.js", checkboxText, false⟩] else [])
      ++ (if options.enabled .callouts then [⟨"callout.inline.js", calloutText, false⟩] else [])
      ++ (if options.enabled .mermaid then [⟨"mermaid.inline.js", mermaidText, true⟩] else [])
  styles :=
    if options.enabled .mermaid then [⟨"mermaid.inline.css", mermaidStyleText⟩] else []

/-- What a page needs under the options, with a debug record. -/
def require (options : Options) : Log.Logged Resources := do
  let r := Resources.ofOptions options
  Log.write Log.debug "ofmark.resources" ("Resolved " ++ toString r.scripts.length
    ++ " script(s) and " ++ toString r.styles.length ++ " stylesheet(s)")
  return r

end NoteMarkup.Assets
