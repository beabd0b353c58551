import Mathlib.Data.List.Infix
import Mathlib.Data.List.MinMax
import Mathlib.Data.List.SplitOn
import Spoo.Lib.PyList
import Spoo.Lib.UrlSplit
import Spoo.Shared.UrlUtils

/-!
# Destination meta tags (`services/meta_tags/parse_html.py`)

`_MetaCollector` is called with the tags and the texts that the standard `HTMLParser` finds in a page, and
stops at the end of the head. What the parser finds is a parameter. `parse_meta_tags` is `none` where the
code raises a `ValueError`.
-/

namespace Spoo.MetaTags

open UrlSplit

/-- A call of `handle_starttag`, `handle_endtag` or `handle_data`. -/
inductive HtmlEvent where
  | startTag (tag : String) (attrs : List (String × Option String))
  | endTag (tag : String)
  | data (text : String)
  deriving DecidableEq

/-- `(rel, href, sizes)`. -/
structure Icon where
  rel : String
  href : String
  sizes : String
  deriving DecidableEq

/-- `_MetaCollector`. -/
structure MetaCollector where
  /-- `self.meta`. -/
  tags : PyDict String String := PyDict.empty
  titleParts : List String := []
  icons : List Icon := []
  inTitle : Bool := false
  deriving DecidableEq

/-- `a or b`. -/
def pyOr (a b : Option String) : Option String := (a.filter (· ≠ "")).or b

/-- `value.split()`. -/
def pyWords (value : String) : List (List Char) := (value.toList.splitOnP isPySpace).filter (· ≠ [])

/-- `value.startswith(lead)`. -/
def startsWith (lead value : String) : Bool := lead.toList.isPrefixOf value.toList

/-- `dict(attrs).get(name)`: an attribute that is there twice counts as it is there last. -/
def attrOf (attrs : List (String × Option String)) (name : String) : Option String :=
  ((PyDict.ofList attrs).get? name).join

/-- `key.startswith(_INTERESTING) or key in _INTERESTING_NAMES`. -/
def isInteresting (key : String) : Bool :=
  startsWith "og:" key || startsWith "twitter:" key || decide (key ∈ ["description", "theme-color"])

section

variable (lib : TextLib)

/-- The item that a `meta` tag sets. -/
def metaItem (attrs : List (String × Option String)) : Option (String × String) :=
  let name := (pyOr (attrOf attrs "property") (attrOf attrs "name")).getD ""
  let key := String.ofList (lib.lower (pyStrip name).toList)
  match attrOf attrs "content" with
  | some content => if key ≠ "" ∧ isInteresting key = true then some (key, pyStrip content) else none
  | none => none

/-- The icon that a `link` tag declares. -/
def linkIcon (attrs : List (String × Option String)) : Option Icon :=
  let rel := String.ofList (lib.lower (pyStrip ((attrOf attrs "rel").getD "")).toList)
  let href := pyStrip ((attrOf attrs "href").getD "")
  let tokens := pyWords rel
  if href ≠ "" ∧ ("icon".toList ∈ tokens ∨ ∃ t ∈ tokens, "apple-touch-icon".toList.isPrefixOf t = true) then
    some ⟨rel, href, pyStrip ((attrOf attrs "sizes").getD "")⟩
  else none

/-- `handle_starttag`: `none` is `_StopParsing`. -/
def MetaCollector.handleStarttag (self : MetaCollector) (tag : String) (attrs : List (String × Option String)) :
    Option MetaCollector :=
  if tag = "body" then none
  else if tag = "title" then some { self with inTitle := true }
  else if tag = "link" then some { self with icons := self.icons ++ (linkIcon lib attrs).toList }
  else if tag ≠ "meta" then some self
  else match metaItem lib attrs with
    | some (key, content) => some { self with tags := self.tags.setdefault key content }
    | none => some self

/-- `handle_endtag`. -/
def MetaCollector.handleEndtag (self : MetaCollector) (tag : String) : Option MetaCollector :=
  let self := if tag = "title" then { self with inTitle := false } else self
  if tag = "head" then none else some self

/-- `handle_data`. -/
def MetaCollector.handleData (self : MetaCollector) (text : String) : MetaCollector :=
  if self.inTitle then { self with titleParts := self.titleParts ++ [text] } else self

def MetaCollector.handle (self : MetaCollector) : HtmlEvent → Option MetaCollector
  | .startTag tag attrs => self.handleStarttag lib tag attrs
  | .endTag tag => self.handleEndtag tag
  | .data text => some (self.handleData text)

/-- `feed`, where `_StopParsing` is suppressed. -/
def MetaCollector.feed (self : MetaCollector) : List HtmlEvent → MetaCollector
  | [] => self
  | event :: events =>
    match self.handle lib event with
    | some self => self.feed events
    | none => self

/-- `ParsedMeta`. -/
structure ParsedMeta where
  title : Option String
  description : Option String
  image : Option String
  color : Option String
  siteName : Option String
  htmlTitle : Option String
  htmlDescription : Option String
  favicon : Option String
  og : PyDict String String
  twitter : PyDict String String
  deriving DecidableEq

/-- `{k.removeprefix(lead): v for k, v in meta.items() if k.startswith(lead)}`. -/
def family (lead : String) (tags : PyDict String String) : PyDict String String :=
  tags.renameKeys fun key =>
    if startsWith lead key then some (String.ofList (key.toList.drop lead.toList.length)) else none

/-- `urljoin(base_url, url)`, which counts when it is an https URL. -/
def httpsJoin (base url : String) : Option (Option String) :=
  (urljoin lib base.toList url.toList).map fun resolved =>
    if "https://".toList.isPrefixOf resolved then some (String.ofList resolved) else none

/-- The default of `sys.set_int_max_str_digits`. -/
def intMaxStrDigits : Nat := 4300

/-- `int(digits)`: `none` is a `ValueError`. -/
def pyInt (digits : List Char) : Option Nat :=
  if digits.length ≤ intMaxStrDigits then Py.int? (String.ofList digits) else none

/-- The group of `re.match(r"(\d+)", sizes)`. -/
def leadingDigits (sizes : String) : List Char := sizes.toList.takeWhile fun c => (Py.decimalValue c).isSome

/-- `"apple-touch-icon" in rel`. -/
def Icon.isAppleTouch (icon : Icon) : Bool := decide ("apple-touch-icon".toList <:+: icon.rel.toList)

/-- `score`. -/
def Icon.score (icon : Icon) : Option Nat :=
  if icon.isAppleTouch then some 180
  else match leadingDigits icon.sizes with
    | [] => some 16
    | digits => pyInt digits

/-- `max(icons, key=score)`, which asks for the score of every icon. -/
def bestIcon (icons : List Icon) : Option (Option Icon) :=
  (icons.mapM Icon.score).map fun _ => icons.argmax fun icon => icon.score.getD 0

/-- `_pick_favicon`. -/
def pickFavicon (icons : List Icon) (base : String) : Option (Option String) := do
  let best ← bestIcon icons
  httpsJoin lib base ((best.map Icon.href).getD "/favicon.ico")

/-- `_HEX_COLOR_RE.match` of a text without a line feed at its end. -/
def isHexColor (color : String) : Bool :=
  match color.toList with
  | '#' :: digits => digits.length = 6 && digits.all isHexDigit
  | _ => false

/-- The image: none, no text, or one that is joined to the base. -/
def pickImage (image : Option String) (base : String) : Option (Option String) :=
  match image with
  | none => some none
  | some image => if image = "" then some (some image) else httpsJoin lib base (pyStrip image)

/-- `parse_meta_tags`. -/
def parseMetaTags (parser : String → List HtmlEvent) (html base : String) : Option ParsedMeta := do
  let collector := MetaCollector.feed lib {} (parser html)
  let og := family "og:" collector.tags
  let twitter := family "twitter:" collector.tags
  let htmlTitle := some (pyStrip (String.join collector.titleParts)) |>.filter (· ≠ "")
  let image ← pickImage lib (pyOr (og.get? "image") (twitter.get? "image")) base
  let color := (collector.tags.get? "theme-color").filter fun color => color ≠ "" && isHexColor (pyStrip color)
  let favicon ← pickFavicon lib collector.icons base
  return {
    title := pyOr (pyOr (og.get? "title") (twitter.get? "title")) htmlTitle
    description :=
      pyOr (pyOr (og.get? "description") (twitter.get? "description")) (collector.tags.get? "description")
    image
    color := color.map pyStrip
    siteName := og.get? "site_name"
    htmlTitle
    htmlDescription := collector.tags.get? "description"
    favicon
    og
    twitter }

end

end Spoo.MetaTags
