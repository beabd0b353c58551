import Spoo.Services.UrlService.Dispatch

/-!
# The public pages and the redirect

A code is looked up in three collections, in an order that depends on its shape. The public pages
follow the redirect; the legacy preview has an order of its own.
-/

namespace Spoo

open UrlService

variable {cfg : DispatchConfig} {s : Stores} {code path : String}

/-! ## What a lookup finds -/

/-- The collection the link is in. -/
def SelectedLink.schema : SelectedLink → SchemaVersion
  | v2 _ => .v2
  | v1 _ => .v1
  | emoji _ => .emoji

variable {link : SelectedLink}

theorem schema_of_selectV2 (h : selectV2 cfg s code = some link) : link.schema = .v2 := by
  obtain ⟨doc, -, rfl⟩ := Option.map_eq_some_iff.1 h
  rfl

theorem schema_of_selectV1 (h : selectV1 s code = some link) : link.schema = .v1 := by
  obtain ⟨row, -, rfl⟩ := Option.map_eq_some_iff.1 h
  rfl

theorem schema_of_selectEmoji (h : selectEmoji s code = some link) : link.schema = .emoji := by
  obtain ⟨row, -, rfl⟩ := Option.map_eq_some_iff.1 h
  rfl

/-- A v2 link is found under its own alias only. -/
theorem code_of_selectV2 (h : selectV2 cfg s code = some link)
    (h' : selectV2 cfg s path = some link) : code = path := by
  obtain ⟨doc, hdoc, rfl⟩ := Option.map_eq_some_iff.1 h
  obtain ⟨doc', hdoc', heq⟩ := Option.map_eq_some_iff.1 h'
  cases heq
  obtain ⟨row, hrow, rfl⟩ := Option.map_eq_some_iff.1 hdoc
  obtain ⟨row', hrow', heq⟩ := Option.map_eq_some_iff.1 hdoc'
  have hkey : row.linkAlias = code ∧ row.domain = cfg.systemDefaultDomain := by
    simpa using (List.find?_some hrow : _ = true)
  have hkey' : row'.linkAlias = path ∧ row'.domain = cfg.systemDefaultDomain := by
    simpa using (List.find?_some hrow' : _ = true)
  rw [← hkey.1, ← hkey'.1]
  exact (congrArg UrlV2Doc.linkAlias heq).symm

/-! ## Who agrees with the redirect -/

/-- The public pages look a code up in the order of the dispatch. -/
theorem resolve_eq_dispatchCode (cfg : DispatchConfig) (s : Stores) (path : String) :
    PublicLinkResolver.resolve cfg s path = dispatchCode cfg s (cfg.lib.unquote path) := by
  unfold PublicLinkResolver.resolve
  dsimp only
  generalize cfg.lib.unquote path = code
  cases hshaped : isEmojiShaped cfg.lib code with
  | true =>
    simp only [dispatchCode, resolutionOrder, hshaped, if_true, PyList.findSome?_pair]
    rfl
  | false =>
    rw [dispatchCode_of_not_shaped hshaped]
    simp only [resolutionOrder, hshaped, Bool.false_eq_true, if_false,
      v2LookupCode_of_not_shaped hshaped]
    split
    · rw [PyList.findSome?_pair]
    · rw [PyList.findSome?_pair]

/-- The link, once the model has read its document. That of a v2 link has been read. -/
def SelectedLink.validated (readers : LegacyReaders) :
    SelectedLink → Except ValidationError SelectedLink
  | v2 doc => .ok (v2 doc)
  | v1 row => if (LegacyUrlDoc.fromMongo readers row).isSome then .ok (v1 row) else .error .rejected
  | emoji row =>
    if (LegacyUrlDoc.fromMongo readers row).isSome then .ok (emoji row) else .error .rejected

/-- What a reader finds that validates the stored document it comes to. -/
def validate (readers : LegacyReaders) (found : Option SelectedLink) :
    Except ValidationError (Option SelectedLink) :=
  found.elim (.ok none) fun link => (link.validated readers).map some

section

variable {readers : LegacyReaders}

theorem validate_selectV2 : validate readers (selectV2 cfg s code) = .ok (selectV2 cfg s code) := by
  unfold selectV2
  cases UrlRepository.findByAlias s.urls code cfg.systemDefaultDomain <;> rfl

theorem tryV1ThenV2_eq : tryV1ThenV2 cfg readers s code =
    validate readers ((selectV1 s code).or (selectV2 cfg s code)) := by
  unfold tryV1ThenV2 LegacyUrlRepository.findTyped selectV1
  cases LegacyUrlRepository.findById s.legacy code with
  | none =>
    rw [Option.map_none, Option.none_or, validate_selectV2]
    rfl
  | some row =>
    simp only [Option.map_some, Option.some_or, validate, Option.elim_some, SelectedLink.validated]
    split <;> rfl

theorem tryV2ThenV1_eq : tryV2ThenV1 cfg readers s code =
    validate readers ((selectV2 cfg s code).or (selectV1 s code)) := by
  unfold tryV2ThenV1 LegacyUrlRepository.findTyped selectV1
  cases hv2 : selectV2 cfg s code with
  | some link =>
    rw [Option.some_or, ← hv2, validate_selectV2, hv2]
  | none =>
    rw [Option.none_or]
    cases LegacyUrlRepository.findById s.legacy code with
    | none => rfl
    | some row =>
      simp only [Option.map_some, validate, Option.elim_some, SelectedLink.validated]
      split <;> rfl

/-- A document that the model rejects ends the search. -/
theorem findSomeM?_emoji (codes : List String) :
    (codes.findSomeM? fun candidate => do
      return (← LegacyUrlRepository.findTyped readers s.emoji candidate).map SelectedLink.emoji) =
      validate readers (codes.findSome? (selectEmoji s)) := by
  induction codes with
  | nil => rfl
  | cons candidate codes ih =>
    rw [List.findSomeM?, List.findSome?_cons, ih]
    unfold LegacyUrlRepository.findTyped selectEmoji
    cases LegacyUrlRepository.findById s.emoji candidate with
    | none => rfl
    | some row =>
      simp only [Option.map_some, validate, Option.elim_some, SelectedLink.validated]
      split <;> rfl

/-- `_dispatch` finds the document it comes to, where the model accepts it. -/
theorem dispatch_eq_validate (code : String) :
    dispatch cfg readers s (v2LookupCode cfg.lib code) code =
      validate readers (dispatchCode cfg s code) := by
  unfold dispatch dispatchCode
  dsimp only
  split_ifs
  · rw [findSomeM?_emoji]
    cases hv2 : selectV2 cfg s (v2LookupCode cfg.lib code) with
    | some link => rw [Option.some_or, ← hv2, validate_selectV2, hv2]
    | none => rw [Option.none_or]
  · exact tryV1ThenV2_eq
  · exact tryV2ThenV1_eq

end

/-- For every path, the redirect finds the link that the public pages find, where the model reads its
document, and raises where the model rejects it. -/
theorem public_resolve_eq_redirect (cfg : DispatchConfig) (readers : LegacyReaders) (s : Stores)
    (path : String) :
    redirectDispatch cfg readers s path =
      (PublicLinkResolver.resolve cfg s path).elim (.ok none) fun link =>
        (link.validated readers).map some := by
  unfold redirectDispatch
  rw [resolve_eq_dispatchCode]
  exact dispatch_eq_validate _

/-- The emoji document of the code is all that an emoji dispatch finds. -/
theorem emojiOnly_eq_iff {canonical : String} :
    selectEmoji s code =
        ((selectV2 cfg s canonical).or (selectEmoji s code)).or (selectEmoji s canonical) ↔
      selectV2 cfg s canonical = none ∧
        ((selectEmoji s code).isSome = true ∨ selectEmoji s canonical = none) := by
  cases hv2 : selectV2 cfg s canonical with
  | some link =>
    constructor
    · intro heq
      rw [Option.some_or, Option.some_or] at heq
      cases (schema_of_selectEmoji heq).symm.trans (schema_of_selectV2 hv2)
    · rintro ⟨hnone, -⟩
      cases hnone
  | none =>
    cases selectEmoji s code with
    | some link => simp
    | none => simp [eq_comm]

/-- A dispatch by length finds what an emoji dispatch finds only where neither finds a link. -/
theorem byLength_eq_iff {canonical : String} (hne : canonical ≠ code) :
    (if code.length = 6 then (selectV1 s code).or (selectV2 cfg s code)
        else (selectV2 cfg s code).or (selectV1 s code)) =
        ((selectV2 cfg s canonical).or (selectEmoji s code)).or (selectEmoji s canonical) ↔
      selectV2 cfg s canonical = none ∧ selectV2 cfg s code = none ∧ selectV1 s code = none ∧
        selectEmoji s code = none ∧ selectEmoji s canonical = none := by
  constructor
  swap
  · rintro ⟨hv2, hraw, hv1, hemoji, hcanonical⟩
    simp [hv2, hraw, hv1, hemoji, hcanonical]
  intro heq
  have hfound (link : SelectedLink)
      (h : (if code.length = 6 then (selectV1 s code).or (selectV2 cfg s code)
        else (selectV2 cfg s code).or (selectV1 s code)) = some link) :
      selectV1 s code = some link ∨ selectV2 cfg s code = some link := by
    split at h
    · exact (Option.or_eq_some_iff.1 h).imp_right And.right
    · exact ((Option.or_eq_some_iff.1 h).imp_right And.right).symm
  have hnone : ((selectV2 cfg s canonical).or (selectEmoji s code)).or
      (selectEmoji s canonical) = none := by
    cases h : ((selectV2 cfg s canonical).or (selectEmoji s code)).or
        (selectEmoji s canonical) with
    | none => rfl
    | some link =>
      exfalso
      rw [h] at heq
      have hnotEmoji : link.schema ≠ .emoji := by
        rcases hfound link heq with hraw | hraw
        · simp [schema_of_selectV1 hraw]
        · simp [schema_of_selectV2 hraw]
      rcases Option.or_eq_some_iff.1 h with h | ⟨-, hcanonical⟩
      · rcases Option.or_eq_some_iff.1 h with hv2 | ⟨-, hemoji⟩
        · rcases hfound link heq with hraw | hraw
          · cases (schema_of_selectV1 hraw).symm.trans (schema_of_selectV2 hv2)
          · exact hne (code_of_selectV2 hv2 hraw)
        · exact hnotEmoji (schema_of_selectEmoji hemoji)
      · exact hnotEmoji (schema_of_selectEmoji hcanonical)
  rw [hnone] at heq
  obtain ⟨hcanonical, hemoji⟩ := Option.or_eq_none_iff.1 hnone
  obtain ⟨hcanonical, hraw⟩ := Option.or_eq_none_iff.1 hcanonical
  have hboth : selectV2 cfg s code = none ∧ selectV1 s code = none := by
    split at heq
    · exact (Option.or_eq_none_iff.1 heq).symm
    · exact Option.or_eq_none_iff.1 heq
  exact ⟨hcanonical, hboth.1, hboth.2, hraw, hemoji⟩

/-- The legacy preview and the redirect answer a path from the same link, or both from none, if
and only if the code is not emoji-shaped, or its link, if any, is an emoji document that the
preview finds. -/
theorem preview_eq_redirect_iff (cfg : DispatchConfig) (s : Stores) (path : String) :
    previewSelect cfg s path = redirectSelect cfg s path ↔
      (isEmojiShaped cfg.lib (cfg.lib.unquote path) = true →
        selectV2 cfg s (canonicalizeEmojiAlias cfg.lib (cfg.lib.unquote path)) = none ∧
        if isEmojiAlias cfg.lib (cfg.lib.unquote path) = true then
          (selectEmoji s (cfg.lib.unquote path)).isSome = true ∨
            selectEmoji s (canonicalizeEmojiAlias cfg.lib (cfg.lib.unquote path)) = none
        else
          selectV2 cfg s (cfg.lib.unquote path) = none ∧
            selectV1 s (cfg.lib.unquote path) = none ∧
            selectEmoji s (cfg.lib.unquote path) = none ∧
            selectEmoji s (canonicalizeEmojiAlias cfg.lib (cfg.lib.unquote path)) = none) := by
  unfold redirectSelect previewSelect
  dsimp only
  generalize cfg.lib.unquote path = code
  cases hshaped : isEmojiShaped cfg.lib code with
  | false =>
    have halias : isEmojiAlias cfg.lib code = false := by
      simp only [isEmojiShaped, Bool.or_eq_false_iff] at hshaped
      exact hshaped.1
    simp [dispatchCode_of_not_shaped hshaped, halias]
  | true =>
    rw [dispatchCode_of_shaped hshaped]
    simp only [true_implies]
    cases halias : isEmojiAlias cfg.lib code with
    | true =>
      rw [if_pos rfl, if_pos rfl]
      exact emojiOnly_eq_iff
    | false =>
      have hne : canonicalizeEmojiAlias cfg.lib code ≠ code := by
        simp only [isEmojiShaped, halias, Bool.false_or, Bool.and_eq_true,
          decide_eq_true_eq] at hshaped
        exact hshaped.1
      rw [if_neg Bool.false_ne_true, if_neg Bool.false_ne_true]
      exact byLength_eq_iff hne

/-- The system domain, with a plain emoji package. -/
def plainDispatch : DispatchConfig where
  lib := plainEmojiLib
  systemDefaultDomain := "spoo.me"

/-- One v2 link, under an emoji alias. -/
def starStores : Stores where
  urls := {
    docs := [{ id := 1, linkAlias := "⭐", domain := "spoo.me", longUrl := "https://a.example/" }]
    nodup_id := by decide
    nodup_key := by decide }
  legacy := .empty
  emoji := .empty

/-- The preview of a v2 link under an emoji alias is not found, and the redirect serves it. -/
theorem preview_misses_v2_emoji :
    previewSelect plainDispatch starStores "⭐" = none ∧
      (redirectSelect plainDispatch starStores "⭐").isSome = true :=
  ⟨Option.isNone_iff_eq_none.1 (by decide +kernel), by decide +kernel⟩

/-- A v1 document whose clicks are null, as no model reads them. -/
def unclickedStores : Stores where
  urls := .empty
  legacy := {
    docs := [{ code := "abcdef", url := "https://a.example/", totalClicks := .null }]
    nodup_id := by decide
    nodup_key := by decide }
  emoji := .empty

/-- The public pages find the document, and the redirect raises. -/
theorem redirect_rejects_unclicked :
    (PublicLinkResolver.resolve plainDispatch unclickedStores "abcdef").isSome = true ∧
      redirectDispatch plainDispatch plainReaders unclickedStores "abcdef" = .error .rejected := by
  have hshaped : isEmojiShaped plainDispatch.lib "abcdef" = false := by decide +kernel
  have hcode : plainDispatch.lib.unquote "abcdef" = "abcdef" := rfl
  unfold redirectDispatch
  rw [resolve_eq_dispatchCode, dispatch_eq_validate, hcode, dispatchCode_of_not_shaped hshaped]
  exact ⟨rfl, rfl⟩

end Spoo
