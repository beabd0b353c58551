import Mathlib.Data.List.Basic
import Spoo.Services.UrlService.Create
import Spoo.Services.UrlService.Dispatch

/-!
# Aliases (`services/url_service.py`, `shared/generators.py`, `shared/reserved_aliases.py`)

Which code a link of any generation may take, and what a code resolves to once links have been made
and renamed. The words that may never be short codes of the system domain are the site's own paths.
-/

namespace Spoo

/-! ## Reserved words -/

/-- `RESERVED_ALIASES`. -/
def reservedAliases : List String := [
  "about", "api", "apps", "auth", "billing", "blog", "brand", "callback", "changelog", "contact",
  "dashboard", "discord", "docs", "domains", "emoji", "error", "export", "favicon", "features",
  "forgot-password", "geo", "github", "health", "help", "home", "humans", "icon", "icons-3d",
  "images", "keys", "legal", "links", "login", "logout", "metric", "oauth", "onboarding",
  "pricing", "privacy", "privacy-policy", "profile", "profile-pictures", "public", "register",
  "restore-account", "relay", "report", "reset", "result", "robots", "security", "settings",
  "signin", "signup", "sitemap", "statistics", "stats", "static", "terms", "terms-of-service",
  "testimonials", "tools", "tos", "twitter", "verify", "_next", "_not-found", "_error", "_gone"]

/-- `str.lower`, as far as ASCII text comes of it: the Kelvin sign is the one character outside ASCII
that lowers to an ASCII letter. -/
def lowerChar (c : Char) : Char := if c = '\u212A' then 'k' else c.toLower

/-- `is_reserved_alias` (`reserved_aliases.py:91-93`). -/
def isReservedAlias (linkAlias : String) : Bool :=
  decide (String.ofList (linkAlias.toList.map lowerChar) ∈ reservedAliases)

/-- A reserved word is not empty, and ASCII. -/
theorem ascii_of_isReservedAlias {linkAlias : String} (h : isReservedAlias linkAlias = true) :
    linkAlias ≠ "" ∧ ∀ c ∈ linkAlias.toList, (lowerChar c).toNat < 128 := by
  have hwords : ∀ word ∈ reservedAliases, word ≠ "" ∧ word.toList.all (·.toNat < 128) = true := by
    decide +kernel
  obtain ⟨hne, hascii⟩ := hwords _ (of_decide_eq_true h)
  refine ⟨?_, fun c hc => of_decide_eq_true (List.all_eq_true.1 hascii _ ?_)⟩
  · rintro rfl
    exact hne rfl
  · rw [String.toList_ofList]
    exact List.mem_map_of_mem hc

example : isReservedAlias "Terms-Of-Service" = true ∧ isReservedAlias "promo" = false := by
  decide +kernel

/-! ## Aliases -/

/-- What a deployment fixes for aliases. -/
structure AliasConfig extends DispatchConfig where
  maxEmojiAliasLength : Nat
  emojiAcceptMaxVersion : Rat

/-- `generation_pool(max_version)`: the accepted single codepoints that are no regional indicator
(`emoji_policy.py:222-273`). -/
def inGenerationPool (lib : EmojiLib) (maxVersion : Rat) (emoji : String) : Bool :=
  graphemeAccepted lib emoji maxVersion &&
    match emoji.toList with
    | [c] => !decide (0x1F1E6 ≤ c.toNat ∧ c.toNat ≤ 0x1F1FF)
    | _ => false

/-- What `generate_emoji_alias_v2` draws (`generators.py:36-59`). -/
structure EmojiCode (lib : EmojiLib) (maxVersion : Rat) (length : Nat) where
  emojis : List String
  length_emojis : emojis.length = length
  inPool : ∀ emoji ∈ emojis, inGenerationPool lib maxVersion emoji = true

/-- The drawn alias. -/
def EmojiCode.code {lib : EmojiLib} {maxVersion : Rat} {length : Nat}
    (drawn : EmojiCode lib maxVersion length) : String := String.join drawn.emojis

/-- `DEFAULT_GENERATE_MAX_VERSION`. -/
def defaultGenerateMaxVersion : Rat := 12

/-- `AliasCheckResult`. -/
inductive AliasCheckResult where
  | available
  | length
  | format
  | reserved
  | taken
  | emojiPolicy
  deriving DecidableEq, Repr

namespace UrlService

/-- `domain or self._system_default_domain`. -/
def scopeOf (cfg : DispatchConfig) (domain : Option String) : String :=
  (orNone domain).getD cfg.systemDefaultDomain

theorem scopeOf_system (cfg : DispatchConfig) :
    scopeOf cfg (some cfg.systemDefaultDomain) = cfg.systemDefaultDomain := by
  by_cases h : cfg.systemDefaultDomain = "" <;> simp [scopeOf, orNone, Option.filter_some, h]

@[simp] theorem scopeOf_scopeOf (cfg : DispatchConfig) (domain : Option String) :
    scopeOf cfg (some (scopeOf cfg domain)) = scopeOf cfg domain := by
  cases hdomain : orNone domain with
  | none =>
    rw [scopeOf, scopeOf, hdomain]
    exact scopeOf_system cfg
  | some scope =>
    have hne : scope ≠ "" := by
      simpa using (Option.filter_eq_some_iff.1 hdomain).2
    have hscope : scopeOf cfg domain = scope := by rw [scopeOf, hdomain, Option.getD_some]
    rw [hscope]
    simp [scopeOf, orNone, Option.filter_some, hne]

/-- `check_alias_available` (`url_service.py:785-807`). -/
def checkAliasAvailable (cfg : DispatchConfig) (s : Stores) (linkAlias : String)
    (domain : Option String) : Bool :=
  let target := scopeOf cfg domain
  if UrlRepository.checkAliasExists s.urls linkAlias target then false
  else if target = cfg.systemDefaultDomain then
    if LegacyUrlRepository.checkExists s.legacy linkAlias then false
    -- Stored emoji codes may carry variation selectors.
    else if isEmojiCandidate linkAlias then
      !LegacyUrlRepository.checkExistsVs16Insensitive s.emoji linkAlias
    else true
  else true

theorem not_exists_of_available {cfg : DispatchConfig} {s : Stores} {linkAlias : String}
    {domain : Option String} (h : checkAliasAvailable cfg s linkAlias domain = true) :
    UrlRepository.checkAliasExists s.urls linkAlias (scopeOf cfg domain) = false := by
  unfold checkAliasAvailable at h
  dsimp only at h
  split at h
  · cases h
  · rename_i hfree
    simpa using hfree

/-- `_validate_and_canonicalize_custom_alias` (`url_service.py:1929-1954`). -/
def validateAndCanonicalizeCustomAlias (cfg : AliasConfig) (linkAlias : String) :
    Except AppError String :=
  if validateAlias linkAlias then .ok linkAlias
  else
    let canonical := canonicalizeEmojiAlias cfg.lib linkAlias
    match checkEmojiAlias cfg.lib canonical cfg.maxEmojiAliasLength cfg.emojiAcceptMaxVersion with
    | .ok => .ok canonical
    | .length =>
      validationError ("emoji alias must be 1-" ++ toString cfg.maxEmojiAliasLength ++ " emoji")
        "alias"
    | _ => validationError "alias contains unsupported emoji or characters" "alias"

/-- `check_alias` (`url_service.py:809-845`). -/
def checkAlias (cfg : AliasConfig) (s : Stores) (linkAlias : String) (domain : Option String) :
    AliasCheckResult :=
  if isEmojiCandidate linkAlias then
    let canonical := canonicalizeEmojiAlias cfg.lib linkAlias
    if !isEmojiOnlyShape cfg.lib canonical then .format
    else
      match checkEmojiAlias cfg.lib canonical cfg.maxEmojiAliasLength cfg.emojiAcceptMaxVersion with
      | .length | .empty => .length
      | .policy => .emojiPolicy
      | .ok =>
        if !checkAliasAvailable cfg.toDispatchConfig s canonical domain then .taken
        else .available
  else if !decide (3 ≤ linkAlias.length ∧ linkAlias.length ≤ 16) then .length
  else if !validateAlias linkAlias then .format
  else if scopeOf cfg.toDispatchConfig domain = cfg.systemDefaultDomain ∧
      isReservedAlias linkAlias then .reserved
  else if !checkAliasAvailable cfg.toDispatchConfig s linkAlias domain then .taken
  else .available

/-- The link a code resolves to on a domain: a custom domain asks `urlsV2` alone
(`url_service.py:632-703`, `1842-1849`). -/
def resolveSelect (cfg : DispatchConfig) (s : Stores) (domain : Option String) (code : String) :
    Option SelectedLink :=
  let scope := scopeOf cfg domain
  if scope = cfg.systemDefaultDomain then dispatchCode cfg s code
  else (UrlRepository.findByAlias s.urls (v2LookupCode cfg.lib code) scope).map .v2

end UrlService

/-- The environment of an update on the stores `s`: alias checks are the service's own. -/
def UpdateEnv.onStores (env : UpdateEnv) (cfg : AliasConfig) (s : Stores) : UpdateEnv :=
  { env with
    systemDefaultDomain := cfg.systemDefaultDomain
    canonicalAlias := UrlService.validateAndCanonicalizeCustomAlias cfg
    aliasAvailable := fun linkAlias domain =>
      UrlService.checkAliasAvailable cfg.toDispatchConfig s linkAlias (some domain) }

theorem targetDomain_onStores (env : UpdateEnv) (cfg : AliasConfig) (s : Stores)
    (domain : Option String) :
    targetDomain (env.onStores cfg s) domain = UrlService.scopeOf cfg.toDispatchConfig domain := by
  cases domain with
  | none => rfl
  | some domain =>
    by_cases h : domain = "" <;>
      simp [targetDomain, UpdateEnv.onStores, UrlService.scopeOf, orNone, Option.filter_some, h]

/-- The environment of a creation on the stores `s`. -/
def CreateEnv.onStores (env : CreateEnv) (cfg : AliasConfig) (s : Stores) : CreateEnv :=
  { env with toUpdateEnv := env.toUpdateEnv.onStores cfg s }

end Spoo
