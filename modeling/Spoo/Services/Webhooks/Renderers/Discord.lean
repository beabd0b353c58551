import Spoo.Lib.Markup
import Spoo.Services.Webhooks.Renderers.Copy

/-!
# The Discord flavor (`services/webhooks/renderers/discord.py`)

A message of components: a heading, the substance of the event and a footer, with separators between. The
texts are cut where they are longer together than the budget allows. The message goes out as JSON text.
-/

namespace Spoo.Renderers.Discord

/-! ## Texts -/

/-- `_MARKDOWN_CHARS`. -/
def markdownChars : List Char := "\\`*_~|>#[]()".toList

/-- One of `_MARKDOWN_CHARS`. -/
def isMarkdown (g : Glyph) : Bool := markdownChars.contains g.char

/-- `_md`. -/
def md (text : Text) : Text := Markup.escape isMarkdown ⟨'\\', .code⟩ text

/-- `text.replace(c, by)`. -/
def replaceChar (c : Char) (new : String) (text : Text) : Text :=
  text.flatMap fun g => if g.char = c then ofChars g.origin new.toList else [g]

/-- `_link_target`. -/
def linkTarget (url : Text) : Text :=
  (replaceChar ')' "%29" (replaceChar '(' "%28" url)).map fun g => { g with origin := .target }

/-- A backtick. -/
def isTick (g : Glyph) : Bool := g.char = '\x60'

/-- `_fence`. -/
def fence (text : Text) : Text := Markup.breakFences isTick (fun g => { g with char := '\x27' }) text

/-! ## The message -/

/-- `_td(content)` and `_sep(spacing, divider)`. -/
inductive Component where
  | text (content : Text)
  | separator (spacing : Nat) (divider : Bool)
  deriving DecidableEq, Repr

namespace Component

/-- `c.get("content", "")`. -/
def content : Component → Text
  | text content => content
  | separator _ _ => []

/-- The text of a text display. -/
def display? : Component → Option Text
  | text content => some content
  | separator _ _ => none

/-- `c["content"] = clip(c["content"], limit)`. -/
def clip (limit : Nat) : Component → Component
  | text content => text (Renderers.clip content limit)
  | separator spacing divider => separator spacing divider

def toJson : Component → Json
  | text content => .obj [("type", .num 10), ("content", .str (String.ofList (content.map (·.char))))]
  | separator spacing divider =>
    .obj [("type", .num 14), ("spacing", .num spacing), ("divider", .bool divider)]

end Component

/-- The texts that are displayed. -/
def displays (components : List Component) : List Text := components.filterMap Component.display?

/-- `_COLORS`. -/
def colors : PyDict String Nat :=
  PyDict.ofList [
    ("link.created", 0x43B581),
    ("link.updated", 0x5865F2),
    ("link.deleted", 0xF04747),
    ("link.expired", 0xE67E22),
    ("link.clicked", 0x99AAB5),
    ("webhook.test", 0x99AAB5)]

/-- `_DEFAULT_COLOR`. -/
def defaultColor : Nat := 0x99AAB5

/-- `_FOOTERS`. -/
def footers : PyDict String (String × String) :=
  PyDict.ofList [
    ("link.clicked", ("click", "R")),
    ("link.created", ("created", "f")),
    ("link.updated", ("updated", "R")),
    ("link.deleted", ("deleted", "f")),
    ("link.expired", ("expired", "R")),
    ("webhook.test", ("sent", "R"))]

/-- `_TEXT_MAX`. -/
def textMax : Nat := 3500

/-- `_SUBTITLE_MAX`. -/
def subtitleMax : Nat := 200

/-- `label = copy.label or copy.title`. -/
def labelText (copy : Copy) : Text := if copy.label ≠ [] then copy.label else copy.title

/-- The heading. A display has a slash, and is never empty. The target of a link has to be a string. -/
def heading (eventType : String) (copy : Copy) : Option Text :=
  match copy.display with
  | none => some (lit "### " ++ md (labelText copy))
  | some display =>
    match copy.titleUrl with
    | none => some (lit "### " ++ md (labelText copy) ++ lit "  " ++ md display)
    | some url =>
      if url.truthy && eventType ≠ "link.deleted" then
        match url with
        | .str url =>
          some (lit "### " ++ md (labelText copy) ++ lit "  [" ++ md display ++ lit "](" ++
            linkTarget (val url) ++ lit ")")
        | _ => none
      else some (lit "### " ++ md (labelText copy) ++ lit "  " ++ md display)

/-- The subtitle, where there is one. -/
def subtitle (copy : Copy) : List Text :=
  match copy.subtitle with
  | none | some [] => []
  | some text => [lit "-# " ++ md (Renderers.clip text subtitleMax)]

/-- The two lines of a change. -/
def diffLines (change : Text × Text × Text) : List Text :=
  [lit "- " ++ change.1 ++ lit ": " ++ fence change.2.1, lit "+ " ++ change.1 ++ lit ": " ++ fence change.2.2]

/-- The substance of an event that is no click. -/
def substance (copy : Copy) : List Text :=
  if copy.changes ≠ [] then
    [lit "```diff\n" ++ List.intercalate (lit "\n") (copy.changes.flatMap diffLines) ++ lit "\n```"]
  else if copy.pairs ≠ [] then
    [List.intercalate (lit "\n") ((copy.pairs.filter (·.1 ≠ "Destination")).map fun pair =>
      lit "**" ++ lit pair.1 ++ lit "**  " ++ md pair.2)]
  else
    match copy.code with
    | some (g :: code) => [lit "```json\n" ++ fence (g :: code) ++ lit "\n```"]
    | _ => if copy.lines ≠ [] then [List.intercalate (lit "\n") (copy.lines.map md)] else []

/-- The footer. -/
def footer (eventType : String) (copy : Copy) (count : Option Text) (epoch : Option Int) : Text :=
  let (verb, style) := (footers.get? eventType).getD ("received", "f")
  lit "-# " ++ lit verb ++ (count.elim [] fun count => lit " " ++ count) ++
    (epoch.elim [] fun epoch => lit "   <t:" ++ lit (toString epoch) ++ lit ":" ++ lit style ++ lit ">") ++
    (copy.notice.elim [] fun notice => lit "\n-# " ++ notice)

/-- Each text as a display. -/
def tds (texts : List Text) : List Component := texts.map Component.text

variable (lib : CopyLib)

/-- The displays between the separators, with the count for the footer. -/
def bodyOf (eventType : String) (payload : PyDict String Json) (copy : Copy) :
    Option (List Text × Option Text) :=
  if eventType = "link.clicked" then
    (clickedSummary lib md payload).map fun summary => ([List.intercalate (lit "\n") summary.1], summary.2)
  else some (substance copy, none)

/-- The components before the budget. -/
def compose (eventType timestamp : String) (payload : PyDict String Json) : Option (List Component) := do
  let copy ← buildCopy lib eventType timestamp payload
  let head ← heading eventType copy
  let body ← bodyOf lib eventType payload copy
  let epoch := (lib.fromisoformat timestamp).map lib.timestamp
  return tds ([head] ++ subtitle copy) ++ [.separator (if isLifecycle eventType then 2 else 1) true] ++
    tds body.1 ++ [.separator 2 false] ++ tds [footer eventType copy body.2 epoch]

/-- `len(biggest["content"])`. -/
def longest (components : List Component) : Nat := (components.map (·.content.length)).foldr max 0

def totalLength (components : List Component) : Nat := (components.map (·.content.length)).sum

/-- The first of the components that have the most content is cut for all of them. -/
def budget (components : List Component) : List Component :=
  let total := totalLength components
  if textMax < total then
    let overflow := total - textMax
    components.modify (components.findIdx fun c => c.content.length = longest components)
      (Component.clip (max 1 (longest components - overflow)))
  else components

/-- The body of a request, before it is JSON text. -/
structure Body where
  accentColor : Nat
  components : List Component
  deriving DecidableEq, Repr

/-- `AVATAR_URL`. -/
def avatarUrl : String := "https://spoo.me/static/images/favicon.png"

def Body.toJson (body : Body) : Json :=
  .obj [("username", .str "spoo.me"), ("avatar_url", .str avatarUrl), ("flags", .num 32768),
    ("allowed_mentions", .obj [("parse", .arr [])]),
    ("components", .arr [.obj [("type", .num 17), ("accent_color", .num body.accentColor),
      ("components", .arr (body.components.map Component.toJson))]])]

def body (eventType timestamp : String) (payload : PyDict String Json) : Option Body :=
  (compose lib eventType timestamp payload).map fun components =>
    ⟨(colors.get? eventType).getD defaultColor, budget components⟩

/-- `DiscordRenderer.render` (`discord.py:84-177`). -/
def render (eventType timestamp : String) (payload : PyDict String Json) : Option String :=
  (body lib eventType timestamp payload).map fun body => lib.dumps body.toJson

end Spoo.Renderers.Discord
