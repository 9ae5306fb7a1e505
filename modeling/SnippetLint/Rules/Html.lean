/-
Rules for HTML.

Elements are known by their tags alone. A document is reached by a file's extension or by being
asked for, never by detection.
-/
import SnippetLint.Repeats
import SnippetLint.Rule

namespace SnippetLint.Html

open Pattern

/-! ### Patterns -/

def doctypeDeclaration : Pattern := textCaseless "<!DOCTYPE" ++ gap ++ textCaseless "html"

/-- An element from its opening tag to its closing tag, whatever stands between. -/
def element (name : String) : Pattern :=
  textCaseless "<" ++ textCaseless name ++ wordEdge ++ many (except ">") ++ text ">"
    ++ many anything ++ text "</" ++ textCaseless name ++ blanks ++ text ">"

/-- The name of a tag: an English letter, then word characters and hyphens. -/
def tagName : Pattern := one latin ++ many (union word (among "-"))

/-- An opening tag: group 1 is its name and group 2 the rest of it. -/
def openingTag : Pattern :=
  text "<" ++ group 1 tagName ++ group 2 (many (except ">")) ++ text ">"

/-- A closing tag; group 1 is its name. -/
def closingTag : Pattern := text "</" ++ group 1 tagName ++ blanks ++ text ">"

/-- An attribute with a value. -/
def attributeNamed (name : String) : Pattern :=
  one blank ++ textCaseless name ++ blanks ++ text "="

/-- An attribute, which is group 1, whose value, which is group 2, begins without a quote. -/
def unquotedAttribute : Pattern :=
  one blank ++ group 1 (several (union word (among ":-"))) ++ blanks ++ text "=" ++ blanks
    ++ group 2 (one (fun c => !(among "\"'>/" c || blank c)) ++ many fun c => !(c == '>' || blank c))

def lineBreak : Pattern := textCaseless "<br" ++ blanks ++ perhaps (text "/") ++ text ">"

def asyncOrDefer : Pattern :=
  one blank ++ (textCaseless "async" ||| textCaseless "defer") ++ wordEdge

/-! ### Tags -/

/-- A text with the English letters in lower case. -/
def lowered (t : Text) : Text := t.map Char.toLower

/-- The name of a tag in lower case. -/
def nameOf (tag : Found) : Checked Text := return lowered (← tag.group 1).text

/-- Whether a tag has a name, in any letter case. -/
def isNamed (tag : Found) (name : String) : Checked Bool := return (← nameOf tag) == name.toList

/-- Whether a pattern occurs in an opening tag behind its name. -/
def holds (tag : Found) (p : Pattern) : Checked Bool := return p.occursIn (← tag.group 2).text

/-- Elements that have no closing tag. -/
def voidElements : List String :=
  ["area", "base", "br", "col", "embed", "hr", "img", "input", "link", "meta", "param", "source",
    "track", "wbr"]

/-- Whether an opening tag asks for a closing tag. -/
def needsClosing (tag : Found) : Checked Bool := do
  let name ← nameOf tag
  let rest ← tag.group 2
  return !(Text.endsWith (Text.trimEnd rest.text) "/" || voidElements.contains (String.ofList name))

/-! ### Checks -/

def doctype : Check := fun t =>
  Finding.ifMissing (doctypeDeclaration.occursIn t)
    "Missing DOCTYPE declaration. Include \"<!DOCTYPE html>\" at the top of the document."

def htmlElement : Check := fun t =>
  Finding.ifMissing ((element "html").occursIn t) "Missing <html> tags."

def bodyElement : Check := fun t =>
  Finding.ifMissing ((element "body").occursIn t) "Missing <body> tags."

/-- Reports each opening tag of a kind. -/
def atTags (t : Text) (isBad : Found → Checked Bool) (message : String) :
    Checked (List Finding) := do
  let tags ← (openingTag.findAll t).filterM isBad
  Finding.atSpans t (tags.map (·.whole)) fun _ => message

def noInlineStyle : Check := fun t =>
  atTags t (fun tag => holds tag (attributeNamed "style"))
    "Inline styles detected. Consider moving styles to an external CSS file."

def imgAlt : Check := fun t =>
  atTags t (fun tag => do
      if ← isNamed tag "img" then return !(← holds tag (attributeNamed "alt")) else return false)
    "Missing alt attribute in <img> tag. This is important for accessibility."

/-- The unquoted attributes of a tag, at their offsets in the whole text. -/
def unquotedIn (tag : Found) : List Span :=
  match tag.group? 2 with
  | none => []
  | some attributes =>
    (unquotedAttribute.findGroups 1 attributes.text).map fun s => ⟨attributes.start + s.start, s.text⟩

def quotedAttributes : Check := fun t =>
  Finding.atSpans t ((openingTag.findAll t).flatMap unquotedIn) fun s =>
    "Unquoted value for attribute \"" ++ s.string ++ "\". Always quote attribute values."

/-- The names that more of the tags in `opened` have than of those in `closed`, in order. -/
def unclosed (opened closed : List Text) : List Text :=
  let names := (firsts (fun name => name) opened).filter fun name =>
    closed.count name < opened.count name
  names.mergeSort fun a b => !decide (b < a)

/-- One finding that lists the elements with fewer closing than opening tags. -/
def closingTags : Check := fun t => do
  let opened ← (← (openingTag.findAll t).filterM needsClosing).mapM nameOf
  let closed ← (closingTag.findAll t).mapM nameOf
  let missing := (unclosed opened closed).map fun name => "<" ++ String.ofList name ++ ">"
  Finding.ifPresent (!missing.isEmpty)
    ("Missing closing tags for the following elements: " ++ Text.join ", " missing)

/-- How many line breaks a document may have. -/
def maxLineBreaks : Nat := 3

def excessiveBr : Check := fun t =>
  let count := (lineBreak.findAll t).length
  Finding.ifPresent (maxLineBreaks < count)
    ("Too many <br> tags used (" ++ toString count ++ "). Consider using CSS for layout instead.")

def scriptLoading : Check := fun t =>
  atTags t (fun tag => do
      if !(← isNamed tag "script") then return false
      if !(← holds tag (attributeNamed "src")) then return false
      return !(← holds tag asyncOrDefer))
    "Script tags without async or defer may block rendering. Consider adding async or defer."

/-! ### The rule set -/

def ruleSet : RuleSet where
  language := .html
  rules := [
    { id := "doctype"
      description := "Documents declare <!DOCTYPE html>"
      check := doctype },
    { id := "html-element"
      description := "Documents have an <html> element"
      check := htmlElement },
    { id := "body-element"
      description := "Documents have a <body> element"
      check := bodyElement },
    { id := "no-inline-style"
      description := "Move styles to CSS"
      check := noInlineStyle },
    { id := "img-alt"
      description := "Images need alternative text"
      check := imgAlt
      severity := .error
      category := .correctness },
    { id := "quoted-attributes"
      description := "Quote attribute values"
      check := quotedAttributes },
    { id := "closing-tags"
      description := "Close every non-void element"
      check := closingTags
      severity := .error
      category := .correctness },
    { id := "excessive-br"
      description := "Use CSS rather than <br> for layout"
      check := excessiveBr
      severity := .info },
    { id := "script-loading"
      description := "External scripts load async or deferred"
      check := scriptLoading
      severity := .info
      category := .pedantic }]

end SnippetLint.Html
