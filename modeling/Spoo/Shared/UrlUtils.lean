import Mathlib.Data.List.Sort
import Spoo.Lib.PyDict

/-!
# Destination URLs (`shared/url_utils.py`)

`parse_destination` splits a destination URL into the parts a link is indexed by. What it
takes from the standard library and from the `idna` and `tldextract` packages is a parameter
(`UrlLib`); every result about destinations holds whatever these return.
-/

namespace Spoo

/-- What `tldextract` returns for a host. -/
structure TldParts where
  subdomain : String
  domain : String
  suffix : String

/-- The URL primitives `parse_destination` calls. -/
structure UrlLib where
  /-- `urlsplit(url)` and its `hostname`: `none` for a `ValueError`. -/
  urlsplit : String → Option (String × Option String)
  /-- `str.lower`. -/
  lower : String → String
  /-- `idna.encode(host, uts46=True)`: `none` for an `IDNAError`. -/
  idnaEncode : String → Option String
  /-- `tldextract.TLDExtract` over the bundled suffix list. -/
  tldExtract : String → TldParts

/-- `{scheme, host, subdomain, registrable_domain}`. -/
structure DestinationParts where
  scheme : String
  host : String
  subdomain : String
  registrableDomain : String
  deriving DecidableEq, Repr

/-- `host.rstrip(".")`. -/
def rstripDots (host : String) : String :=
  String.ofList (host.toList.reverse.dropWhile (· = '.')).reverse

section

variable (lib : UrlLib)

/-- `str.isspace` of one character. -/
def isPySpace (c : Char) : Bool :=
  let n := c.toNat
  decide (0x09 ≤ n ∧ n ≤ 0x0D ∨ 0x1C ≤ n ∧ n ≤ 0x20 ∨ n = 0x85 ∨ n = 0xA0 ∨ n = 0x1680 ∨
    0x2000 ≤ n ∧ n ≤ 0x200A ∨ n = 0x2028 ∨ n = 0x2029 ∨ n = 0x202F ∨ n = 0x205F ∨ n = 0x3000)

/-- `value.strip()`. -/
def pyStrip (value : String) : String :=
  String.ofList ((value.toList.dropWhile isPySpace).reverse.dropWhile isPySpace).reverse

/-- `_FORBIDDEN_CHARS`. -/
def isForbiddenChar (c : Char) : Bool :=
  let n := c.toNat
  -- Quotes, angle brackets, the backslash and the backtick.
  decide (n ≤ 0x1F ∨ 0x7F ≤ n ∧ n ≤ 0x9F ∨ n ∈ [0x22, 0x27, 0x3C, 0x3E, 0x5C, 0x60])

/-- A label of `_HOSTNAME_RE`: letters, digits and inner hyphens. -/
def isHostLabel (label : List Char) : Bool :=
  let isWord := fun c : Char => c.isLower || c.isDigit
  decide (label.length ≤ 63) && label.all (fun c => isWord c || c = '-') &&
    label.head?.any isWord && label.getLast?.any isWord

/-- The last label of `_HOSTNAME_RE`. -/
def isTopLabel (label : List Char) : Bool :=
  (decide (2 ≤ label.length ∧ label.length ≤ 63) && label.all Char.isLower) ||
    (decide (5 ≤ label.length ∧ label.length ≤ 63) && "xn--".toList.isPrefixOf label &&
      label.all fun c => c.isLower || c.isDigit || c = '-')

/-- `_HOSTNAME_RE.match`. -/
def isHostname (host : String) : Bool :=
  let labels := host.toList.splitOn '.'
  decide (host.length ≤ 253) && decide (2 ≤ labels.length) && labels.dropLast.all isHostLabel &&
    labels.getLast?.any isTopLabel

/-- What `normalise_fqdn` raises. -/
inductive FqdnError where
  | required
  | forbiddenCharacters (value : String)
  | malformed (value : String)
  deriving DecidableEq, Repr

/-- `normalise_fqdn` (`url_utils.py:256-276`). -/
def normaliseFqdn (value : String) : Except FqdnError String :=
  let normalised := rstripDots (lib.lower (pyStrip value))
  if normalised = "" then .error .required
  else if normalised.toList.any isForbiddenChar then .error (.forbiddenCharacters value)
  else if isHostname normalised then .ok normalised
  else .error (.malformed value)

/-- `is_registrable_apex` (`url_utils.py:41-45`). -/
def isRegistrableApex (fqdn : String) : Bool :=
  let ext := lib.tldExtract (rstripDots (String.ofList (fqdn.toList.dropWhile (· = '.'))))
  ext.domain ≠ "" && ext.suffix ≠ "" && ext.subdomain = ""

/-- `registrable_domain` (`url_utils.py:30-38`). -/
def registrableDomain (value : String) : String :=
  let ext := lib.tldExtract value
  if ext.suffix ≠ "" then ext.domain ++ "." ++ ext.suffix else ext.domain

/-- `parse_destination` (`url_utils.py:49-90`). -/
def parseDestination (url : String) : Option DestinationParts :=
  if url = "" then none
  else match lib.urlsplit url with
    | some (scheme, some hostname) =>
      let host := lib.lower (rstripDots hostname)
      if host = "" then none
      else
        -- A failed encoding keeps the host as it is.
        let host :=
          if host.toList.any (127 < ·.toNat) then (lib.idnaEncode host).getD host else host
        let ext := lib.tldExtract host
        if ext.suffix ≠ "" then
          some ⟨lib.lower scheme, host, ext.subdomain, ext.domain ++ "." ++ ext.suffix⟩
        else some ⟨lib.lower scheme, host, "", host⟩
    | _ => none

/-- The host `parse_destination` finds in a URL. -/
def destinationHost (url : String) : Option String := (parseDestination lib url).map (·.host)

/-- `link_destination_urls`: distinct, first occurrence kept (`url_utils.py:117-142`). -/
def linkDestinationUrls (longUrl : Option String) (geoRules : Option (PyDict String String))
    (variants : Option (List String)) (preStartUrl expiredRedirectUrl : Option String) :
    List String :=
  (longUrl.toList ++ (geoRules.map PyDict.values).getD [] ++ variants.getD [] ++
    preStartUrl.toList ++ expiredRedirectUrl.toList).filter (· ≠ "") |>.eraseDups

/-- One step of the loop of `_secondary_parts`: the first parts seen for a host stay. -/
def addPart (exclude : String) (byHost : PyDict String DestinationParts)
    (parts : DestinationParts) : PyDict String DestinationParts :=
  if parts.host ≠ exclude then byHost.setdefault parts.host parts else byHost

/-- `_secondary_parts`: one entry per host, sorted by host (`url_utils.py:145-150`). -/
def secondaryParts (urls : List String) (exclude : String) : List DestinationParts :=
  let byHost := (urls.filterMap (parseDestination lib)).foldl (addPart exclude) PyDict.empty
  (byHost.entries.insertionSort fun a b => a.1 ≤ b.1).map Prod.snd

/-- `secondary_hosts` (`url_utils.py:153-155`). -/
def secondaryHosts (urls : List String) (exclude : String) : List String :=
  (secondaryParts lib urls exclude).map (·.host)

/-- `secondary_registrables` (`url_utils.py:158-160`). -/
def secondaryRegistrables (urls : List String) (exclude : String) : List String :=
  (secondaryParts lib urls exclude).map (·.registrableDomain)

/-- Each entry of the dictionary `_secondary_parts` builds is filed under its own host. -/
private theorem host_of_mem_byHost (exclude : String) (parts : List DestinationParts) :
    ∀ e ∈ (parts.foldl (addPart exclude) PyDict.empty).entries, e.2.host = e.1 := by
  refine List.foldlRecOn parts (addPart exclude)
    (motive := fun d : PyDict String DestinationParts => ∀ e ∈ d.entries, e.2.host = e.1)
    (by simp) fun d hd p _ e he => ?_
  unfold addPart at he
  split at he
  · rcases PyDict.mem_entries_setdefault he with he | rfl
    · exact hd e he
    · rfl
  · exact hd e he

private theorem mem_keys_byHost (exclude h : String) (parts : List DestinationParts) :
    ∀ d : PyDict String DestinationParts, h ∈ (parts.foldl (addPart exclude) d).keys ↔
      h ∈ d.keys ∨ h ≠ exclude ∧ ∃ p ∈ parts, p.host = h := by
  induction parts with
  | nil => simp
  | cons p parts ih =>
    intro d
    rw [List.foldl_cons, ih, addPart]
    split
    · rename_i hp
      simp only [PyDict.mem_keys_setdefault, List.mem_cons, exists_eq_or_imp]
      constructor
      · rintro ((h | rfl) | ⟨h₁, h₂⟩)
        · exact .inl h
        · exact .inr ⟨hp, .inl rfl⟩
        · exact .inr ⟨h₁, .inr h₂⟩
      · rintro (h | ⟨h₁, rfl | h₂⟩)
        · exact .inl (.inl h)
        · exact .inl (.inr rfl)
        · exact .inr ⟨h₁, h₂⟩
    · rename_i hp
      simp only [List.mem_cons, exists_eq_or_imp]
      refine or_congr_right (and_congr_right fun hne => ⟨.inr, ?_⟩)
      rintro (rfl | h)
      · exact absurd hne hp
      · exact h

/-- `secondary_hosts` finds exactly the hosts of the URLs without the excluded one. -/
theorem mem_secondaryHosts {urls : List String} {exclude h : String} :
    h ∈ secondaryHosts lib urls exclude ↔
      h ≠ exclude ∧ ∃ url ∈ urls, destinationHost lib url = some h := by
  have hkeys := mem_keys_byHost exclude h (urls.filterMap (parseDestination lib)) PyDict.empty
  have hhost := host_of_mem_byHost exclude (urls.filterMap (parseDestination lib))
  have hmem : h ∈ secondaryHosts lib urls exclude ↔
      h ∈ ((urls.filterMap (parseDestination lib)).foldl (addPart exclude)
        PyDict.empty).keys := by
    simp only [secondaryHosts, secondaryParts, List.mem_map, List.mem_insertionSort,
      PyDict.mem_keys, exists_exists_and_eq_and]
    exact exists_congr fun e => and_congr_right fun he => by rw [hhost e he]
  rw [hmem, hkeys]
  simp only [PyDict.keys, PyDict.entries_empty, List.map_nil, List.not_mem_nil, false_or,
    List.mem_filterMap, destinationHost, Option.map_eq_some_iff]
  refine and_congr_right fun _ => ⟨?_, ?_⟩
  · rintro ⟨p, ⟨url, hurl, hp⟩, hh⟩
    exact ⟨url, hurl, p, hp, hh⟩
  · rintro ⟨url, hurl, p, hp, hh⟩
    exact ⟨p, ⟨url, hurl, hp⟩, hh⟩

/-- Every part is that of some URL. -/
theorem exists_of_mem_secondaryParts {urls : List String} {exclude : String}
    {parts : DestinationParts} (h : parts ∈ secondaryParts lib urls exclude) :
    ∃ url ∈ urls, parseDestination lib url = some parts := by
  have hbyHost : ∀ e ∈ ((urls.filterMap (parseDestination lib)).foldl (addPart exclude)
      PyDict.empty).entries, ∃ url ∈ urls, parseDestination lib url = some e.2 := by
    refine List.foldlRecOn _ (addPart exclude)
      (motive := fun d : PyDict String DestinationParts =>
        ∀ e ∈ d.entries, ∃ url ∈ urls, parseDestination lib url = some e.2)
      (by simp) fun d hd p hp e he => ?_
    unfold addPart at he
    split at he
    · rcases PyDict.mem_entries_setdefault he with he | rfl
      · exact hd e he
      · exact List.mem_filterMap.1 hp
    · exact hd e he
  simp only [secondaryParts, List.mem_map, List.mem_insertionSort] at h
  obtain ⟨e, he, rfl⟩ := h
  exact hbyHost e he

/-- `secondary_registrables` lists the registrable domain of each host of `secondary_hosts`. -/
theorem forall₂_secondaryHosts (urls : List String) (exclude : String) :
    List.Forall₂ (fun host registrable => ∃ url ∈ urls, ∃ parts,
        parseDestination lib url = some parts ∧ parts.host = host ∧
          parts.registrableDomain = registrable)
      (secondaryHosts lib urls exclude) (secondaryRegistrables lib urls exclude) := by
  unfold secondaryHosts secondaryRegistrables
  rw [List.forall₂_map_left_iff, List.forall₂_map_right_iff, List.forall₂_same]
  intro parts hparts
  obtain ⟨url, hurl, hparse⟩ := exists_of_mem_secondaryParts lib hparts
  exact ⟨url, hurl, parts, hparse, rfl, rfl⟩

end

theorem mem_linkDestinationUrls {longUrl preStartUrl expiredRedirectUrl : Option String}
    {geoRules : Option (PyDict String String)} {variants : Option (List String)}
    {url : String} :
    url ∈ linkDestinationUrls longUrl geoRules variants preStartUrl expiredRedirectUrl ↔
      url ≠ "" ∧ (longUrl = some url ∨ url ∈ (geoRules.map PyDict.values).getD [] ∨
        url ∈ variants.getD [] ∨ preStartUrl = some url ∨ expiredRedirectUrl = some url) := by
  simp only [linkDestinationUrls, List.mem_eraseDups, List.mem_filter, List.mem_append,
    Option.mem_toList, decide_eq_true_eq]
  tauto

/-- What the primitives return on plain ASCII URLs `scheme://host/…` whose host is under no
listed public suffix, such as the hosts under `.example`. -/
def asciiUrlLib : UrlLib where
  urlsplit url :=
    let scheme := url.toList.takeWhile (· ≠ ':')
    let rest := url.toList.drop scheme.length
    if rest.take 3 = [':', '/', '/'] then
      let host := (rest.drop 3).takeWhile fun c => c ≠ '/' ∧ c ≠ '?' ∧ c ≠ '#'
      some (String.ofList scheme, some (String.ofList host))
    else some ("", none)
  lower s := String.ofList (s.toList.map Char.toLower)
  idnaEncode _ := none
  tldExtract host := ⟨"", host, ""⟩

example : parseDestination asciiUrlLib "https://A.example./path?q=1" =
    some ⟨"https", "a.example", "", "a.example"⟩ := by decide

end Spoo
