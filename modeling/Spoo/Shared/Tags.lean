import Spoo.Lib.PyList
import Spoo.Shared.UrlUtils

/-!
# Tag names (`shared/tags.py`)

The rules for the name of a tag, shared by the documents and by every request that takes one. Case
folding and the categories of characters are Unicode's: they are a parameter (`UnicodeLib`), with what
the rules rely on in `UnicodeLib.Lawful`.
-/

namespace Spoo

/-- What tag names take from Unicode. -/
structure UnicodeLib where
  /-- `str.casefold` of one character. -/
  casefold : Char → List Char
  /-- `str.isalnum` of one character. -/
  isAlnum : Char → Bool
  /-- `unicodedata.category(ch) in ("Mn", "Mc")`. -/
  isCombiningMark : Char → Bool

/-- A `ValueError`, which a request answers as 422. -/
structure ValueError where
  message : String
  deriving DecidableEq, Repr

/-- What a request holds in the place of a tag. -/
inductive TagValue where
  | str (value : String)
  /-- Anything but a string. -/
  | other
  deriving DecidableEq, Repr

/-- `TAG_MAX_LENGTH`. -/
def tagMaxLength : Nat := 32

/-- `_CONTROL_CHARS_RE`. -/
def isTagControlChar (c : Char) : Bool := decide (c.toNat ≤ 0x1F) || decide (c.toNat = 0x7F)

/-- `_TAG_PUNCTUATION`. -/
def tagPunctuation : List Char := [' ', '-', '_', '.']

namespace UnicodeLib

variable (lib : UnicodeLib)

/-- `_WHITESPACE_RE.sub(" ", value)`. -/
def collapseSpaces (value : List Char) : List Char := PyList.collapse isPySpace ' ' false value

/-- The text of a tag before it is checked. -/
def tagText (value : List Char) : List Char :=
  (PyList.strip isPySpace ((collapseSpaces value).filter fun c => !isTagControlChar c)).flatMap lib.casefold

/-- The characters of a tag. -/
def isTagChar (c : Char) : Bool := lib.isAlnum c || decide (c ∈ tagPunctuation) || lib.isCombiningMark c

/-- The checks of `normalise_tag`. -/
def checkTag (tag : List Char) : Except ValueError String :=
  if tag = [] then .error ⟨"tags cannot be empty"⟩
  else if tagMaxLength < tag.length then
    .error ⟨"tag '" ++ String.ofList (tag.take tagMaxLength) ++ "…' exceeds " ++ toString tagMaxLength ++
      " characters"⟩
  else if tag.all lib.isTagChar then .ok (String.ofList tag)
  else .error ⟨"tag '" ++ String.ofList tag ++
    "' may only contain letters, digits, spaces, '-', '_' and '.'"⟩

/-- `normalise_tag` (`tags.py:23-42`). -/
def normaliseTag : TagValue → Except ValueError String
  | .str value => lib.checkTag (lib.tagText value.toList)
  | .other => .error ⟨"tags must be strings"⟩

/-- The name that a request for a tag stores: the request normalises it (`CreateTagRequest._norm_name`),
and the document once more (`TagDoc._normalise_name`). -/
def storedName (value : TagValue) : Except ValueError String := do
  let name ← lib.normaliseTag value
  lib.normaliseTag (.str name)

/-- What the rules rely on. -/
structure Lawful : Prop where
  /-- A folded character folds to itself. -/
  casefold_idem : ∀ c, ∀ d ∈ lib.casefold c, lib.casefold d = [d]
  casefold_ne_nil : ∀ c, lib.casefold c ≠ []
  casefold_space : lib.casefold ' ' = [' ']
  /-- Folding makes no white space. -/
  casefold_not_space : ∀ c, isPySpace c = false → ∀ d ∈ lib.casefold c, isPySpace d = false
  /-- And no control character. -/
  casefold_not_control : ∀ c, isTagControlChar c = false → ∀ d ∈ lib.casefold c, isTagControlChar d = false

end UnicodeLib

end Spoo
