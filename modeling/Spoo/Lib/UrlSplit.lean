import Mathlib.Data.List.Basic
import Mathlib.Tactic.SplitIfs

/-!
# URLs as in `urllib.parse`

`urlsplit`, the host name of its result, and `urljoin`. A split raises a `ValueError` for an authority with
brackets that hold no IPv6 address, and for one that turns into something else under NFKC. The tables of
`unicodedata` and the parser of `ipaddress` are parameters.
-/

namespace UrlSplit

/-- What is asked of `unicodedata`, of `str` and of `ipaddress`. -/
structure TextLib where
  /-- `unicodedata.normalize("NFKC", text)`. -/
  nfkc : List Char → List Char
  /-- `str.lower`. -/
  lower : List Char → List Char
  /-- `ipaddress.ip_address(host)` is an `IPv6Address`. -/
  isIpv6 : List Char → Bool

/-- On ASCII text. -/
def asciiText : TextLib := ⟨id, List.map Char.toLower, fun host => decide (':' ∈ host)⟩

/-- The result of a split. A part that is not there is `none`. -/
structure Parts where
  scheme : Option (List Char)
  netloc : Option (List Char)
  path : List Char
  query : Option (List Char)
  fragment : Option (List Char)
  deriving DecidableEq, Repr

/-- `_WHATWG_C0_CONTROL_OR_SPACE`. -/
def isC0OrSpace (c : Char) : Bool := c.toNat ≤ 0x20

/-- `_UNSAFE_URL_BYTES_TO_REMOVE`. -/
def isRemoved (c : Char) : Bool := c = '\t' || c = '\r' || c = '\n'

/-- The text that is split. -/
def cleaned (url : List Char) : List Char := (url.dropWhile isC0OrSpace).filter fun c => !isRemoved c

/-- `scheme_chars`. -/
def isSchemeChar (c : Char) : Bool := c.isAlphanum || c = '+' || c = '-' || c = '.'

/-- `text.split(sep, 1)`: what is behind the separator, if it is there. -/
def cut (sep : Char) (text : List Char) : List Char × Option (List Char) :=
  (text.takeWhile (· ≠ sep), (text.dropWhile (· ≠ sep)).tail?)

/-- `text.rpartition(sep)[2]`. -/
def afterLast (sep : Char) (text : List Char) : List Char := (text.reverse.takeWhile (· ≠ sep)).reverse

/-- The scheme and what is behind it. -/
def splitScheme (url : List Char) : Option (List Char) × List Char :=
  match cut ':' url with
  | (head, some rest) =>
    if head.head?.any Char.isAlpha && head.all isSchemeChar then (some (head.map Char.toLower), rest)
    else (none, url)
  | (_, none) => (none, url)

/-- The characters that end an authority. -/
def endsNetloc (c : Char) : Bool := c = '/' || c = '?' || c = '#'

/-- `_splitnetloc`, where the text begins with `//`. -/
def splitNetloc (url : List Char) : Option (List Char) × List Char :=
  match url with
  | '/' :: '/' :: rest => (some (rest.takeWhile fun c => !endsNetloc c), rest.dropWhile fun c => !endsNetloc c)
  | _ => (none, url)

def isHexDigit (c : Char) : Bool := c.isDigit || ('a' ≤ c && c ≤ 'f') || ('A' ≤ c && c ≤ 'F')

variable (lib : TextLib)

/-- `_check_bracketed_host` does not raise. -/
def isBracketedHost (host : List Char) : Bool :=
  match host with
  | 'v' :: rest =>
    match cut '.' rest with
    | (version, some address) => version ≠ [] && version.all isHexDigit && address ≠ []
    | (_, none) => false
  | _ => lib.isIpv6 host

/-- `_check_bracketed_netloc` does not raise. -/
def isBracketedNetloc (netloc : List Char) : Bool :=
  let hostAndPort := afterLast '@' netloc
  match cut '[' hostAndPort with
  | (before, some bracketed) =>
    let (host, port) := cut ']' bracketed
    before = [] && (port.getD []).head?.all (· = ':') && isBracketedHost lib host
  | (_, none) => isBracketedHost lib (cut ':' hostAndPort).1

/-- `_checknetloc` does not raise. -/
def isStableNetloc (netloc : List Char) : Bool :=
  if netloc.all (·.toNat < 0x80) then true
  else
    let kept := netloc.filter fun c => !(c = '@' || c = ':' || c = '#' || c = '?')
    let normalized := lib.nfkc kept
    kept = normalized || normalized.all fun c => !(endsNetloc c || c = '@' || c = ':')

/-- An authority that a split accepts. -/
def isNetloc (netloc : List Char) : Bool :=
  (decide ('[' ∈ netloc ↔ ']' ∈ netloc) && (decide ('[' ∉ netloc) || isBracketedNetloc lib netloc)) &&
    isStableNetloc lib netloc

/-- `urlsplit`: `none` is a `ValueError`. -/
def urlsplit (url : List Char) : Option Parts :=
  let (scheme, rest) := splitScheme (cleaned url)
  let (netloc, rest) := splitNetloc rest
  if isNetloc lib (netloc.getD []) then
    let (rest, fragment) := cut '#' rest
    let (path, query) := cut '?' rest
    some ⟨scheme, netloc, path, query, fragment⟩
  else none

/-- `parsed.hostname`: `none` is `None`. -/
def Parts.hostname (parts : Parts) : Option (List Char) :=
  let hostinfo := afterLast '@' (parts.netloc.getD [])
  let host :=
    match cut '[' hostinfo with
    | (_, some bracketed) => (cut ']' bracketed).1
    | (_, none) => (cut ':' hostinfo).1
  if host = [] then none
  else match cut '%' host with
    | (name, some zone) => some (lib.lower name ++ '%' :: zone)
    | (name, none) => some (lib.lower name)

/-- `uses_params`. -/
def usesParams : List String :=
  ["", "ftp", "hdl", "prospero", "http", "https", "shttp", "rtsp", "rtsps", "rtspu", "sip", "sips", "mms",
    "sftp", "tel"]

/-- `urlparse(url).path`: the parameters of the last segment are cut off. -/
def Parts.parsedPath (parts : Parts) : List Char :=
  if String.ofList (parts.scheme.getD []) ∈ usesParams then
    let segment := afterLast '/' parts.path
    parts.path.take (parts.path.length - segment.length) ++ segment.takeWhile (· ≠ ';')
  else parts.path

/-- `_urlunsplit`. -/
def urlunsplit (parts : Parts) : List Char :=
  let url :=
    match parts.netloc with
    | some netloc =>
      "//".toList ++ netloc ++
        if parts.path.head?.all (· = '/') then parts.path else '/' :: parts.path
    | none => if "//".toList.isPrefixOf parts.path then "//".toList ++ parts.path else parts.path
  let url :=
    match parts.scheme with
    | some (c :: scheme) => c :: scheme ++ ':' :: url
    | _ => url
  url ++ ((parts.query.map ('?' :: ·)).getD []) ++ ((parts.fragment.map ('#' :: ·)).getD [])

/-- `uses_relative`, and all of it is in `uses_netloc`. -/
def usesRelative : List String :=
  ["", "ftp", "http", "gopher", "nntp", "imap", "wais", "file", "https", "shttp", "mms", "prospero", "rtsp",
    "rtsps", "rtspu", "sftp", "svn", "svn+ssh", "ws", "wss"]

/-- The segments that are left of a path. -/
def resolveSegments (segments : List (List Char)) : List (List Char) :=
  let resolved := segments.foldl (fun resolved segment =>
    if segment = "..".toList then resolved.dropLast
    else if segment = ".".toList then resolved
    else resolved ++ [segment]) []
  if segments.getLast? = some ".".toList ∨ segments.getLast? = some "..".toList then resolved ++ [[]]
  else resolved

/-- `"/".join(segments)`. -/
def joinSegments (segments : List (List Char)) : List Char := ['/'].intercalate segments

/-- `segments[1:-1] = filter(None, segments[1:-1])`. -/
def dropEmptyInner (segments : List (List Char)) : List (List Char) :=
  segments.take 1 ++ (segments.tail.dropLast.filter (· ≠ [])) ++ segments.tail.getLast?.toList

/-- The path that a relative one comes to. -/
def resolvePath (basePath path : List Char) : List Char :=
  let baseParts := basePath.splitOn '/'
  let baseParts := if baseParts.getLast? = some [] then baseParts else baseParts.dropLast
  let segments :=
    if path.head? = some '/' then path.splitOn '/' else dropEmptyInner (baseParts ++ path.splitOn '/')
  match joinSegments (resolveSegments segments) with
  | [] => ['/']
  | resolved => resolved

/-- `urljoin`: `none` is a `ValueError`. -/
def urljoin (base url : List Char) : Option (List Char) :=
  if base = [] then some url
  else if url = [] then some base
  else do
    let b ← urlsplit lib base
    let u ← urlsplit lib url
    let scheme := u.scheme.or b.scheme
    if scheme ≠ b.scheme ∨ String.ofList (scheme.getD []) ∉ usesRelative then return url
    else if u.netloc.any (· ≠ []) then return urlunsplit { u with scheme }
    else if u.path = [] then
      let query := u.query.or b.query
      let fragment := if u.query.isNone then u.fragment.or b.fragment else u.fragment
      return urlunsplit ⟨scheme, b.netloc, b.path, query, fragment⟩
    else return urlunsplit ⟨scheme, b.netloc, resolvePath b.path u.path, u.query, u.fragment⟩

/-! ## When they raise -/

variable {lib}

theorem urlsplit_isSome (url : List Char) : (urlsplit lib url).isSome =
    isNetloc lib ((splitNetloc (splitScheme (cleaned url)).2).1.getD []) := by
  unfold urlsplit
  dsimp only
  split_ifs with h
  · exact h.symm
  · exact (Bool.eq_false_iff.2 h).symm

theorem urlsplit_isSome_of_no_netloc {url : List Char}
    (h : (splitNetloc (splitScheme (cleaned url)).2).1 = none) : (urlsplit lib url).isSome = true := by
  rw [urlsplit_isSome, h]
  rfl

/-- A join with a base that can be split raises where the split of the other does. -/
theorem urljoin_isSome {base : List Char} (hbase : (urlsplit lib base).isSome = true) (hne : base ≠ [])
    (url : List Char) : (urljoin lib base url).isSome = (urlsplit lib url).isSome := by
  obtain ⟨b, hb⟩ := Option.isSome_iff_exists.1 hbase
  unfold urljoin
  rw [if_neg hne]
  by_cases hurl : url = []
  · rw [if_pos hurl, hurl]
    exact (urlsplit_isSome_of_no_netloc rfl).symm
  rw [if_neg hurl, hb]
  cases hu : urlsplit lib url with
  | none => rfl
  | some u =>
    simp only [Option.bind_eq_bind, Option.bind_some]
    split_ifs <;> rfl

end UrlSplit
