import Spoo.Lib.PercentEncoding
import Spoo.Proofs.NewKeys

/-!
# Emoji aliases that are canonicalised twice, and emoji codes of two generations

`canonicalize_emoji_alias` decodes, composes and drops the selectors, once each and in this order. What is left may be
decoded or composed once more. The codes of `emojis` may carry variation selectors that the aliases of `urlsV2` have
lost.
-/

namespace Spoo

open PercentEncoding (isHex hasEscape unquote unquote_of_not_hasEscape countP_unquote_le)
open Mongo Mongo.Collection UrlService

/-! ## Aliases canonicalised twice -/

/-- `unquote`, and what NFC does to hexadecimal digits and to selectors. -/
structure EmojiLib.Standard (lib : EmojiLib) : Prop where
  unquote_eq : lib.unquote = PercentEncoding.unquote
  /-- Hexadecimal digits are composed with marks, and no character is taken apart into one. -/
  hex_le : ∀ s : String, (lib.normalizeNfc s).toList.countP isHex ≤ s.toList.countP isHex
  /-- A selector is no part of another character. -/
  vs16_mem : ∀ s : String, vs16 ∈ (lib.normalizeNfc s).toList → vs16 ∈ s.toList

/-- The text less its selectors. -/
def withoutSelectors (text : String) : String := String.ofList (text.toList.filter (· ≠ vs16))

/-- Some percent sign of the text has two hexadecimal digits after it, selectors not counted. -/
def EscapesPastSelectors (text : String) : Prop := hasEscape (withoutSelectors text).toList = true

instance (text : String) : Decidable (EscapesPastSelectors text) :=
  inferInstanceAs (Decidable (_ = true))

/-- The text stays in NFC when its selectors are dropped: none of them keeps a mark from what it
composes with. -/
def EmojiLib.ComposedPastSelectors (lib : EmojiLib) (text : String) : Prop :=
  lib.normalizeNfc (withoutSelectors text) = withoutSelectors text

theorem withoutSelectors_of_not_mem {text : String} (h : vs16 ∉ text.toList) :
    withoutSelectors text = text := by
  have hkept : text.toList.filter (· ≠ vs16) = text.toList := by
    refine List.filter_eq_self.2 fun c hc => decide_eq_true ?_
    rintro rfl
    exact h hc
  rw [withoutSelectors, hkept, String.ofList_toList]

theorem vs16_notMem_withoutSelectors (text : String) : vs16 ∉ (withoutSelectors text).toList := by
  simp [withoutSelectors]

theorem countP_withoutSelectors_le (text : String) :
    (withoutSelectors text).toList.countP isHex ≤ text.toList.countP isHex := by
  rw [withoutSelectors, String.toList_ofList]
  exact List.Sublist.countP_le List.filter_sublist

section

variable {lib : EmojiLib} (hlib : lib.Standard)

include hlib

/-- A text that has lost its selectors stays canonical exactly when it has no escape and is in NFC. -/
theorem canonicalizeEmojiAlias_eq_self_iff {text : String} (hplain : vs16 ∉ text.toList) :
    canonicalizeEmojiAlias lib text = text ↔
      hasEscape text.toList = false ∧ lib.normalizeNfc text = text := by
  have hcanonical : canonicalizeEmojiAlias lib text =
      withoutSelectors (lib.normalizeNfc (unquote text)) := by
    rw [← hlib.unquote_eq]
    rfl
  have hsame (hfree : hasEscape text.toList = false) :
      canonicalizeEmojiAlias lib text = lib.normalizeNfc text := by
    rw [hcanonical, unquote_of_not_hasEscape hfree]
    exact withoutSelectors_of_not_mem fun hmem => hplain (hlib.vs16_mem text hmem)
  constructor
  · intro hfixed
    have hfree : hasEscape text.toList = false := by
      by_contra hescape
      rw [Bool.not_eq_false] at hescape
      -- Each stage keeps or lowers the number of hexadecimal digits, and the decoding lowers it.
      have hdecoded := countP_unquote_le text
      have hcomposed := hlib.hex_le (unquote text)
      have hdropped := countP_withoutSelectors_le (lib.normalizeNfc (unquote text))
      rw [← hcanonical, hfixed] at hdropped
      rw [if_pos hescape] at hdecoded
      omega
    exact ⟨hfree, (hsame hfree).symm.trans hfixed⟩
  · rintro ⟨hfree, hnfc⟩
    rw [hsame hfree, hnfc]

end

/-- An alias is canonicalised once for all exactly when its decoded text has no escape left, and stays in
NFC without its selectors. -/
theorem canonicalizeEmojiAlias_idempotent_iff (lib : EmojiLib) (hlib : lib.Standard)
    (linkAlias : String) :
    canonicalizeEmojiAlias lib (canonicalizeEmojiAlias lib linkAlias) =
        canonicalizeEmojiAlias lib linkAlias ↔
      ¬ EscapesPastSelectors (lib.normalizeNfc (lib.unquote linkAlias)) ∧
        lib.ComposedPastSelectors (lib.normalizeNfc (lib.unquote linkAlias)) := by
  have hcanonical : canonicalizeEmojiAlias lib linkAlias =
      withoutSelectors (lib.normalizeNfc (lib.unquote linkAlias)) := rfl
  rw [hcanonical, canonicalizeEmojiAlias_eq_self_iff hlib (vs16_notMem_withoutSelectors _),
    EscapesPastSelectors, Bool.not_eq_true]
  rfl

/-- The primitives on ASCII text, which is in NFC. -/
def asciiEmojiLib : EmojiLib := { plainEmojiLib with unquote := PercentEncoding.unquote }

theorem standard_asciiEmojiLib : asciiEmojiLib.Standard where
  unquote_eq := rfl
  hex_le _ := Nat.le_refl _
  vs16_mem _ h := h

theorem canonicalizeEmojiAlias_idempotent_iff_plain :
    canonicalizeEmojiAlias asciiEmojiLib (canonicalizeEmojiAlias asciiEmojiLib "%61bc") =
        canonicalizeEmojiAlias asciiEmojiLib "%61bc" ↔
      ¬ EscapesPastSelectors (asciiEmojiLib.normalizeNfc (asciiEmojiLib.unquote "%61bc")) ∧
        asciiEmojiLib.ComposedPastSelectors
          (asciiEmojiLib.normalizeNfc (asciiEmojiLib.unquote "%61bc")) :=
  canonicalizeEmojiAlias_idempotent_iff asciiEmojiLib standard_asciiEmojiLib "%61bc"

/-- A percent sign that is escaped twice takes two passes. -/
theorem percent_canonicalised_twice :
    canonicalizeEmojiAlias asciiEmojiLib "%2525" = "%25" ∧
      canonicalizeEmojiAlias asciiEmojiLib
        (canonicalizeEmojiAlias asciiEmojiLib "%2525") = "%" := by
  decide +kernel

/-! ## Codes of two generations -/

/-- The pattern finds the stored codes with at most one selector after each character. -/
theorem checkExistsVs16Insensitive_iff {emoji : LegacyUrlStore} {canonical : String}
    (hcanonical : vs16 ∉ canonical.toList) :
    LegacyUrlRepository.checkExistsVs16Insensitive emoji canonical = true ↔
      ∃ row ∈ emoji.docs, ∃ body, IsVs16Variant canonical.toList body ∧
        (row.code.toList = body ∨ row.code.toList = body ++ ['\n']) := by
  rw [LegacyUrlRepository.checkExistsVs16Insensitive, findOne, List.find?_isSome]
  exact exists_congr fun row => and_congr_right fun _ => matchesVs16Insensitive_iff hcanonical

/-- No v2 link of the system domain has an emoji alias that is the code of an emoji link less its
selectors. -/
def NoTwins (cfg : DispatchConfig) (s : Stores) : Prop :=
  ∀ linkAlias, HasKey s.urls cfg.systemDefaultDomain linkAlias →
    isEmojiCandidate linkAlias = true →
      ∀ row ∈ s.emoji.docs, ¬IsVs16Variant linkAlias.toList row.code.toList

section

variable {cfg : AliasConfig} {edge : EdgeConfig} {s : Stores} {linkAlias code : String}

/-- An alias that was found free has no twin. -/
theorem LegacyFree.not_variant (h : LegacyFree s linkAlias)
    (hcandidate : isEmojiCandidate linkAlias = true) :
    ∀ row ∈ s.emoji.docs, ¬IsVs16Variant linkAlias.toList row.code.toList := by
  intro row hrow hvariant
  have hcanonical : vs16 ∉ linkAlias.toList := by
    rw [← hvariant.2]
    simp
  have hfound : LegacyUrlRepository.checkExistsVs16Insensitive s.emoji linkAlias = true :=
    (checkExistsVs16Insensitive_iff hcanonical).2 ⟨row, hrow, _, hvariant, .inl rfl⟩
  rw [h.2 hcandidate] at hfound
  cases hfound

theorem LinkChange.GivesKey.legacyFree {change : LinkChange cfg}
    (h : change.GivesKey s cfg.systemDefaultDomain linkAlias)
    (hcandidate : isEmojiCandidate linkAlias = true) : LegacyFree s linkAlias := by
  have hscope := scopeOf_system cfg.toDispatchConfig
  cases change with
  | create env request =>
    rcases available_of_chooseAlias h.2 with ⟨-, havailable⟩ | ⟨-, hfind⟩
    · exact legacyFree_of_available havailable hscope
    · have halias := (drawn_alphanumeric hfind).1
      simp [isEmojiCandidate, halias] at hcandidate
  | update => exact legacyFree_of_available h.2 hscope
  | bulkMoveDomain => exact legacyFree_of_available h.2 hscope
  | shorten => cases h
  | emoji => cases h

/-- A new emoji code is not the alias of a v2 link of the system domain. -/
theorem LinkChange.GivesEmoji.not_hasKey {change : LinkChange cfg}
    (h : change.GivesEmoji s code) : ¬HasKey s.urls cfg.systemDefaultDomain code := by
  cases change with
  | emoji env request =>
    exact not_hasKey_of_available (LegacyShortener.available_of_chooseEmojies h)
  | _ => cases h

/-- An operation that keeps the older generations apart from `urlsV2`. -/
theorem NoTwins.run (hlib : cfg.lib.Lawful) (h : NoTwins cfg.toDispatchConfig s)
    (change : LinkChange cfg) : NoTwins cfg.toDispatchConfig (change.run edge s) := by
  rintro _ ⟨url, hurl, hdomain, rfl⟩ hcandidate row hrow
  have hkey := change.hasKey_run hurl
  rw [hdomain] at hkey
  rcases hkey with hold | hgiven
  · rcases change.emoji_run hrow with hstored | hnew
    · exact h _ hold hcandidate row hstored
    · -- The new code has no selector, so that it would have to be the alias itself.
      rintro ⟨-, hstrip⟩
      have hplain : vs16 ∉ row.code.toList := by
        rw [← hnew.canonical hlib]
        exact vs16_not_mem_canonicalizeEmojiAlias _ _
      have hkept : row.code.toList.filter (· ≠ vs16) = row.code.toList := by
        refine List.filter_eq_self.2 fun c hc => decide_eq_true ?_
        rintro rfl
        exact hplain hc
      rw [hkept, String.toList_inj] at hstrip
      rw [← hstrip] at hold
      exact hnew.not_hasKey hold
  · rcases change.emoji_run hrow with hstored | hnew
    · exact (hgiven.legacyFree hcandidate).not_variant hcandidate row hstored
    · cases change with
      | emoji => cases hgiven
      | _ => cases hnew

/-- The alias check finds the stored codes that are an alias with at most one selector after each
character, and a new line after it at most; no operation makes a link beside such a code. -/
theorem emoji_codes_unique (hlib : cfg.lib.Lawful) (hstart : NoTwins cfg.toDispatchConfig s)
    (changes : List (LinkChange cfg)) :
    (∀ (emoji : LegacyUrlStore) (requested : String),
      LegacyUrlRepository.checkExistsVs16Insensitive emoji
          (canonicalizeEmojiAlias cfg.lib requested) = true ↔
        ∃ row ∈ emoji.docs, ∃ body,
          IsVs16Variant (canonicalizeEmojiAlias cfg.lib requested).toList body ∧
            (row.code.toList = body ∨ row.code.toList = body ++ ['\n'])) ∧
      ∀ t ∈ List.scanl (fun s change => LinkChange.run edge s change) s changes,
        NoTwins cfg.toDispatchConfig t :=
  ⟨fun _ _ => checkExistsVs16Insensitive_iff (vs16_not_mem_canonicalizeEmojiAlias _ _),
    Run.forall_mem_scanl_of_step (fun _ change h => h.run hlib change) hstart⟩

end

/-- The stores with one emoji link. -/
def storedEmoji (code : String) : Stores :=
  { noLinks with
    emoji := {
      docs := [{ code, url := "https://b.example/" }]
      nodup_id := List.nodup_singleton _
      nodup_key := List.nodup_singleton _ } }

/-- A v2 link is made under an emoji alias. -/
def starLink : LinkChange plainAliases :=
  .create openCreateEnv { scheduledRequest with linkAlias := some "⭐" } (some 7) "192.0.2.1" none 0

theorem emoji_codes_unique_starLink :
    NoTwins plainAliases.toDispatchConfig (storedEmoji "⭐⭐") ∧
    ∀ t ∈ List.scanl (fun s change => LinkChange.run plainEdge s change) (storedEmoji "⭐⭐")
      [starLink], NoTwins plainAliases.toDispatchConfig t := by
  have hstart : NoTwins plainAliases.toDispatchConfig (storedEmoji "⭐⭐") := by
    rintro _ ⟨_, hurl, -⟩
    cases hurl
  exact ⟨hstart, (emoji_codes_unique lawful_starEmojiLib hstart [starLink]).2⟩

/-- A code with two selectors in a row, or with one at its head, is not found, and a v2 link is made
beside it. A code with a new line is found. -/
theorem selectors_hide_codes :
    (∀ code ∈ ["⭐\uFE0F\uFE0F", "\uFE0F⭐"],
      canonicalizeEmojiAlias starEmojiLib code = "⭐" ∧
      LegacyUrlRepository.checkExistsVs16Insensitive (storedEmoji code).emoji "⭐" = false ∧
      (starLink.run plainEdge (storedEmoji code)).urls.idAt ("spoo.me", "⭐") = some 1) ∧
    canonicalizeEmojiAlias starEmojiLib "⭐\n" ≠ "⭐" ∧
    LegacyUrlRepository.checkExistsVs16Insensitive (storedEmoji "⭐\n").emoji "⭐" = true := by
  decide +kernel

end Spoo
