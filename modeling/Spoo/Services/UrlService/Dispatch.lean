import Spoo.Services.Safety.Enforcer

/-!
# Which link answers a code (`shared/alias_dispatch.py`)

The generation of a code is told from its form. Three parts of the source choose a link for a code of the system
domain: `_dispatch` for the redirect (`services/url_service.py`), `PublicLinkResolver` for the public pages
(`services/public_link_resolver.py`) and the legacy preview route (`routes/legacy/url_shortener.py`).
-/

namespace Spoo

/-! ## Generations -/

section

/-- `SchemaVersion`. -/
inductive SchemaVersion where
  | v1
  | v2
  | emoji
  deriving DecidableEq, Repr

variable (lib : EmojiLib)

/-- `is_emoji_shaped` (`alias_dispatch.py:36-48`). -/
def isEmojiShaped (shortCode : String) : Bool :=
  isEmojiAlias lib shortCode ||
    let canonical := canonicalizeEmojiAlias lib shortCode
    decide (canonical ≠ shortCode) && isEmojiAlias lib canonical

/-- `resolution_order` (`alias_dispatch.py:51-62`). -/
def resolutionOrder (shortCode : String) : List SchemaVersion :=
  if isEmojiShaped lib shortCode then [.v2, .emoji]
  else if shortCode.length = 6 then [.v1, .v2]
  else [.v2, .v1]

/-- `v2_lookup_code` (`alias_dispatch.py:65-74`). -/
def v2LookupCode (shortCode : String) : String :=
  if isEmojiShaped lib shortCode then canonicalizeEmojiAlias lib shortCode else shortCode

/-- `emoji_lookup_candidates` (`alias_dispatch.py:77-87`). -/
def emojiLookupCandidates (shortCode : String) : List String :=
  let canonical := canonicalizeEmojiAlias lib shortCode
  if canonical = shortCode then [shortCode] else [shortCode, canonical]

variable {lib} {shortCode : String}

theorem v2LookupCode_of_not_shaped (h : isEmojiShaped lib shortCode = false) :
    v2LookupCode lib shortCode = shortCode := by
  simp [v2LookupCode, h]

theorem v2LookupCode_of_shaped (h : isEmojiShaped lib shortCode = true) :
    v2LookupCode lib shortCode = canonicalizeEmojiAlias lib shortCode := if_pos h

/-- The canonical form of an emoji code is not alphanumeric. -/
theorem not_alphanumeric_of_shaped (hlib : lib.Lawful) (h : isEmojiShaped lib shortCode = true) :
    (canonicalizeEmojiAlias lib shortCode).toList.all isAliasChar = false := by
  simp only [isEmojiShaped, Bool.or_eq_true, Bool.and_eq_true] at h
  rcases h with halias | ⟨-, halias⟩
  · exact all_canonicalizeEmojiAlias hlib halias
  · by_contra hplain
    rw [Bool.not_eq_false] at hplain
    rw [isEmojiAlias_of_alphanumeric hlib hplain] at halias
    cases halias

/-- An alphanumeric code is no emoji code. -/
theorem not_shaped_of_alphanumeric (hlib : lib.Lawful)
    (h : shortCode.toList.all isAliasChar = true) : isEmojiShaped lib shortCode = false := by
  by_contra hshaped
  rw [Bool.not_eq_false] at hshaped
  have hnot := not_alphanumeric_of_shaped hlib hshaped
  rw [canonicalizeEmojiAlias_of_alphanumeric hlib h, h] at hnot
  cases hnot

/-- The emoji generation is asked for emoji codes alone. -/
theorem emoji_mem_resolutionOrder :
    .emoji ∈ resolutionOrder lib shortCode ↔ isEmojiShaped lib shortCode = true := by
  unfold resolutionOrder
  split
  · simp [*]
  · split <;> simp [*]

end

/-! ## The links -/

/-- A link, with the collection it was found in. -/
inductive SelectedLink where
  | v2 (doc : UrlV2Doc)
  | v1 (row : LegacyUrlRow)
  | emoji (row : LegacyUrlRow)

/-- What a deployment fixes for the lookups. -/
structure DispatchConfig where
  lib : EmojiLib
  systemDefaultDomain : String

variable (cfg : DispatchConfig) (readers : LegacyReaders) (s : Stores)

/-- A lookup in `urlsV2` on the system domain. -/
def selectV2 (shortCode : String) : Option SelectedLink :=
  (UrlRepository.findByAlias s.urls shortCode cfg.systemDefaultDomain).map .v2

/-- A lookup in `urls`, of the document as it is stored. -/
def selectV1 (shortCode : String) : Option SelectedLink :=
  (LegacyUrlRepository.findById s.legacy shortCode).map .v1

/-- A lookup in `emojis`, of the document as it is stored. -/
def selectEmoji (shortCode : String) : Option SelectedLink :=
  (LegacyUrlRepository.findById s.emoji shortCode).map .emoji

namespace UrlService

/-- `_try_v1_then_v2` (`url_service.py:1875-1891`). -/
def tryV1ThenV2 (shortCode : String) : Except ValidationError (Option SelectedLink) := do
  match ← LegacyUrlRepository.findTyped readers s.legacy shortCode with
  | some row => return some (.v1 row)
  | none => return selectV2 cfg s shortCode

/-- `_try_v2_then_v1` (`url_service.py:1857-1873`). -/
def tryV2ThenV1 (shortCode : String) : Except ValidationError (Option SelectedLink) :=
  match selectV2 cfg s shortCode with
  | some link => .ok (some link)
  | none => return (← LegacyUrlRepository.findTyped readers s.legacy shortCode).map .v1

/-- `_dispatch` (`url_service.py:1801-1840`). -/
def dispatch (shortCode rawCode : String) : Except ValidationError (Option SelectedLink) :=
  let order := resolutionOrder cfg.lib rawCode
  if .emoji ∈ order then
    match selectV2 cfg s shortCode with
    | some link => .ok (some link)
    | none => (emojiLookupCandidates cfg.lib rawCode).findSomeM? fun candidate => do
      return (← LegacyUrlRepository.findTyped readers s.emoji candidate).map .emoji
  else if order.head? = some .v1 then tryV1ThenV2 cfg readers s shortCode
  else tryV2ThenV1 cfg readers s shortCode

/-- `_dispatch` as the redirect route has it called: for the unquoted path
(`redirect_routes.py:163-184`). -/
def redirectDispatch (path : String) : Except ValidationError (Option SelectedLink) :=
  let code := cfg.lib.unquote path
  dispatch cfg readers s (v2LookupCode cfg.lib code) code

/-- The document that `_dispatch` comes to for a code, as it is stored. -/
def dispatchCode (code : String) : Option SelectedLink :=
  let order := resolutionOrder cfg.lib code
  if .emoji ∈ order then
    (selectV2 cfg s (v2LookupCode cfg.lib code)).or
      ((emojiLookupCandidates cfg.lib code).findSome? (selectEmoji s))
  else if order.head? = some .v1 then
    (selectV1 s (v2LookupCode cfg.lib code)).or (selectV2 cfg s (v2LookupCode cfg.lib code))
  else (selectV2 cfg s (v2LookupCode cfg.lib code)).or (selectV1 s (v2LookupCode cfg.lib code))

/-- The document a redirect comes to, as it is stored. -/
def redirectSelect (path : String) : Option SelectedLink :=
  dispatchCode cfg s (cfg.lib.unquote path)

end UrlService

/-- `PublicLinkResolver.resolve` (`public_link_resolver.py:173-219`). -/
def PublicLinkResolver.resolve (path : String) : Option SelectedLink :=
  let code := cfg.lib.unquote path
  (resolutionOrder cfg.lib code).findSome? fun
    | .v2 => selectV2 cfg s (v2LookupCode cfg.lib code)
    | .emoji => (emojiLookupCandidates cfg.lib code).findSome? (selectEmoji s)
    | .v1 => selectV1 s code

/-- The link the legacy preview answers from (`url_shortener.py:471-553`). -/
def previewSelect (path : String) : Option SelectedLink :=
  let code := cfg.lib.unquote path
  if isEmojiAlias cfg.lib code then selectEmoji s code
  else if code.length = 6 then (selectV1 s code).or (selectV2 cfg s code)
  else (selectV2 cfg s code).or (selectV1 s code)

/-! ## What a dispatch finds -/

namespace UrlService

variable {cfg} {s} {code : String}

theorem dispatchCode_of_shaped (h : isEmojiShaped cfg.lib code = true) :
    dispatchCode cfg s code =
      ((selectV2 cfg s (canonicalizeEmojiAlias cfg.lib code)).or (selectEmoji s code)).or
        (selectEmoji s (canonicalizeEmojiAlias cfg.lib code)) := by
  rw [dispatchCode, v2LookupCode_of_shaped h]
  simp only [emoji_mem_resolutionOrder, h, if_true, emojiLookupCandidates,
    Option.or_assoc]
  congr 1
  split
  · rename_i hcanonical
    rw [hcanonical, Option.or_self, List.findSome?_singleton]
  · exact PyList.findSome?_pair ..

theorem dispatchCode_of_not_shaped (h : isEmojiShaped cfg.lib code = false) :
    dispatchCode cfg s code =
      if code.length = 6 then (selectV1 s code).or (selectV2 cfg s code)
      else (selectV2 cfg s code).or (selectV1 s code) := by
  rw [dispatchCode, v2LookupCode_of_not_shaped h]
  simp only [resolutionOrder, h, Bool.false_eq_true, if_false]
  by_cases hlen : code.length = 6 <;> simp [hlen]

end UrlService

end Spoo
