import Mathlib.Data.List.TakeWhile
import Spoo.Middleware.Tenant
import Spoo.Proofs.AliasCheck

/-!
# Which aliases a custom domain answers

An alias is accepted by one set of rules and let through by another. Here the two are compared, over every
path that decodes to the alias.
-/

namespace Spoo

open UrlService TenantMiddleware

/-! ## The gate -/

namespace TenantMiddleware

variable {text code method : String}

/-- A text that decodes to the characters of an alias is one segment of a path. -/
theorem slash_not_mem (hspelled : PercentEncoding.isSpelled isAliasPathChar 0 text.toList = true) :
    '/' ∉ text.toList := by
  intro hmem
  have hallowed := PercentEncoding.allowed_of_mem_isSpelled (d := '/') (by decide) (by decide)
    (fun c hc => absurd hc List.not_mem_nil) hspelled hmem
  exact absurd hallowed (by decide)

theorem toList_path (text : String) : ("/" ++ text).toList = '/' :: text.toList := by
  simp

theorem path_injective {text text' : String} (h : "/" ++ text = "/" ++ text') : text = text' := by
  have hchars := congrArg String.toList h
  rw [toList_path, toList_path] at hchars
  exact String.toList_injective (List.cons.inj hchars).2

/-- One segment is reserved if it is one of the words: none has an escape, so only their own texts decode to
them. -/
theorem isReservedPath_eq_false (hslash : '/' ∉ text.toList)
    (hopen : "/" ++ PercentEncoding.unquote text ∉ reservedPrefixes) : isReservedPath ("/" ++ text) = false := by
  rw [isReservedPath, List.any_eq_false]
  intro reserved hreserved
  have hplain : PercentEncoding.hasEscape reserved.toList.tail = false ∧ reserved.toList ≠ [] := by
    revert reserved
    decide
  rw [Bool.or_eq_true, decide_eq_true_eq, not_or]
  constructor
  · rintro rfl
    rw [toList_path, List.tail_cons] at hplain
    rw [PercentEncoding.unquote_of_not_hasEscape hplain.1] at hopen
    exact hopen hreserved
  · intro hbelow
    obtain ⟨later, hlater⟩ := List.isPrefixOf_iff_prefix.1 hbelow
    rw [toList_path, String.toList_append] at hlater
    cases hchars : reserved.toList with
    | nil => exact hplain.2 hchars
    | cons c chars =>
      rw [hchars] at hlater
      have htext : text.toList = chars ++ "/".toList ++ later := (List.cons.inj hlater).2.symm
      rw [htext] at hslash
      simp at hslash

theorem matchesAliasPattern_path (hne : text ≠ "")
    (hspelled : PercentEncoding.isSpelled isAliasPathChar 0 text.toList = true) :
    matchesAliasPattern ("/" ++ text) = true := by
  have hall : ∀ c ∈ text.toList, decide (c ≠ '/') = true := by
    intro c hc
    exact decide_eq_true fun heq => slash_not_mem hspelled (heq ▸ hc)
  have hbody : matchesAliasBody text.toList = true := by
    have hbefore : text.toList.takeWhile (· ≠ '/') = text.toList := List.takeWhile_eq_self_iff.2 hall
    have hafter : text.toList.dropWhile (· ≠ '/') = [] := List.dropWhile_eq_nil_iff.2 hall
    simp only [matchesAliasBody, hbefore, hafter, hspelled]
    simpa using hne
  rw [matchesAliasPattern, toList_path]
  simp only [hbody, Bool.true_or]

/-- One segment ends like the form of a password if it is that word. -/
theorem isSuffixOf_password_iff (hslash : '/' ∉ text.toList) :
    "/password".toList.isSuffixOf ("/" ++ text).toList = true ↔ text = "password" := by
  rw [List.isSuffixOf_iff_suffix, toList_path]
  constructor
  · rintro ⟨before, hbefore⟩
    cases before with
    | nil => exact String.toList_injective (List.cons.inj hbefore).2.symm
    | cons c before =>
      have htext : text.toList = before ++ "/password".toList := (List.cons.inj hbefore).2.symm
      rw [htext] at hslash
      simp at hslash
  · rintro rfl
    exact List.suffix_rfl

/-- A path that decodes to an alias outside the reserved words is let through for reading, unless it is the
word of the password form. -/
theorem isAllowedOnCustomTenant_iff (hcode : PercentEncoding.unquote text = code) (hne : code ≠ "")
    (hchars : ∀ c ∈ code.toList, isAliasPathChar c = true) (hopen : "/" ++ code ∉ reservedPrefixes)
    (hmethod : method ∈ ["GET", "HEAD"]) :
    isAllowedOnCustomTenant ("/" ++ text) method = true ↔ text ≠ "password" := by
  subst hcode
  have hspelled := PercentEncoding.isSpelled_of_unquote hchars
  have hslash := slash_not_mem hspelled
  have htext : text ≠ "" := by
    rintro rfl
    exact hne rfl
  have hroot : "/" ++ text ≠ "/" := fun h => htext (@path_injective text "" h)
  have hexact : "/" ++ text ∉ allowedExactPaths := by
    intro hmem
    have hfavicon : text = "favicon.ico" := path_injective (List.mem_singleton.1 hmem)
    subst hfavicon
    exact absurd hspelled (by decide)
  have hpost : method ≠ "POST" := by
    rintro rfl
    exact absurd hmethod (by decide)
  rw [isAllowedOnCustomTenant, if_neg hroot, isReservedPath_eq_false hslash hopen, if_neg Bool.false_ne_true,
    if_neg hexact, matchesAliasPattern_path htext hspelled, if_pos rfl]
  by_cases hpassword : text = "password"
  · rw [if_pos ((isSuffixOf_password_iff hslash).2 hpassword)]
    simp [hpassword, hpost]
  · rw [if_neg fun h => hpassword ((isSuffixOf_password_iff hslash).1 h)]
    simpa [hpassword] using hmethod

end TenantMiddleware

/-! ## The aliases -/

/-- The characters of the emoji with one code point, and of those with one and a skin tone. -/
def isPictograph (c : Char) : Bool :=
  decide (0x2190 ≤ c.toNat ∧ c.toNat ≤ 0x2BFF) || decide (0x1F000 ≤ c.toNat ∧ c.toNat ≤ 0x1FAFF) ||
    decide (c.toNat ∈ [0xA9, 0xAE, 0x203C, 0x2049, 0x2122, 0x2139, 0x3030, 0x303D, 0x3297, 0x3299])

/-- The blocks of Unicode that the emoji are in: the ones of a single character, with or without a skin tone. -/
def EmojiLib.InBlocks (lib : EmojiLib) : Prop :=
  ∀ (emoji : String) (c : Char) (tone : List Char), (lib.emojiData emoji).isSome = true →
    emoji.toList = c :: tone → (∀ d ∈ tone, 0x1F3FB ≤ d.toNat ∧ d.toNat ≤ 0x1F3FF) → isPictograph c = true

section

variable {cfg : AliasConfig} {s : Stores} {linkAlias : String}

theorem isAliasPathChar_of_isAliasChar {c : Char} (h : isAliasChar c = true) : isAliasPathChar c = true := by
  rw [isAliasChar] at h
  simp only [isAliasPathChar, h, Bool.true_or]

theorem isAliasPathChar_of_isPictograph {c : Char} (h : isPictograph c = true) : isAliasPathChar c = true := by
  rw [isPictograph, Bool.or_eq_true, Bool.or_eq_true] at h
  rcases h with (harrows | hplane) | hsingle
  · simp only [isAliasPathChar, harrows, Bool.or_true, Bool.true_or]
  · simp only [isAliasPathChar, hplane, Bool.or_true, Bool.true_or]
  · have hlisted : ∀ n ∈ [0xA9, 0xAE, 0x203C, 0x2049, 0x2122, 0x2139, 0x3030, 0x303D, 0x3297, 0x3299],
        n ∈ [0xA9, 0xAE, 0x200D, 0x203C, 0x2049, 0x20E3, 0x2122, 0x2139, 0x3030, 0x303D, 0x3297, 0x3299, 0xFE0E,
          0xFE0F] := by
      decide
    simp only [isAliasPathChar, decide_eq_true (hlisted _ (of_decide_eq_true hsingle)), Bool.or_true,
      Bool.true_or]

theorem isAliasPathChar_of_graphemeAccepted (hblocks : cfg.lib.InBlocks) {grapheme : String} {maxVersion : Rat}
    (h : graphemeAccepted cfg.lib grapheme maxVersion = true) :
    ∀ c ∈ grapheme.toList, isAliasPathChar c = true := by
  unfold graphemeAccepted at h
  split at h
  · cases h
  · rename_i datum hdatum
    have hsome : (cfg.lib.emojiData grapheme).isSome = true := by
      rw [hdatum]
      rfl
    rw [Bool.and_eq_true] at h
    obtain ⟨-, hshape⟩ := h
    split at hshape
    · rename_i c hchars
      have hpictograph := hblocks grapheme c [] hsome hchars fun d hd => absurd hd List.not_mem_nil
      rw [hchars]
      simpa using isAliasPathChar_of_isPictograph hpictograph
    · rename_i c tone hchars
      rw [decide_eq_true_eq] at hshape
      have hpictograph := hblocks grapheme c [tone] hsome hchars (by simpa using hshape)
      have htone : isAliasPathChar tone = true := by
        have hblock : 0x1F000 ≤ tone.toNat ∧ tone.toNat ≤ 0x1FAFF := by omega
        simp [isAliasPathChar, hblock]
      rw [hchars]
      simpa [htone] using isAliasPathChar_of_isPictograph hpictograph
    · cases hshape

theorem toList_ne_nil_of_graphemeAccepted {lib : EmojiLib} {grapheme : String} {maxVersion : Rat}
    (h : graphemeAccepted lib grapheme maxVersion = true) : grapheme.toList ≠ [] := by
  intro hnil
  unfold graphemeAccepted at h
  split at h
  · cases h
  · rw [hnil] at h
    simp at h

theorem isAliasPathChar_join (hblocks : cfg.lib.InBlocks) {emojis : List String} {maxVersion : Rat}
    (h : ∀ emoji ∈ emojis, graphemeAccepted cfg.lib emoji maxVersion = true) :
    ∀ c ∈ (String.join emojis).toList, isAliasPathChar c = true := by
  intro c hc
  rw [String.toList_join, List.mem_flatMap] at hc
  obtain ⟨emoji, hemoji, hc⟩ := hc
  exact isAliasPathChar_of_graphemeAccepted hblocks (h emoji hemoji) c hc

/-- The code of a link is text that the gate knows. -/
def IsPathCode (linkAlias : String) : Prop :=
  linkAlias ≠ "" ∧ ∀ c ∈ linkAlias.toList, isAliasPathChar c = true

/-- A custom alias is kept as it is or in its canonical form. -/
theorem isPathCode_of_custom (hlib : cfg.lib.Lawful) (hascii : cfg.lib.NonAscii) (hblocks : cfg.lib.InBlocks)
    {requested : String} (hne : requested ≠ "") (hshape : validateAliasShape cfg.lib (some requested) = .ok ())
    (h : validateAndCanonicalizeCustomAlias cfg requested = .ok linkAlias) : IsPathCode linkAlias := by
  rw [validateAliasShape_iff hne] at hshape
  cases hcandidate : isEmojiCandidate requested with
  | true =>
    rw [hcandidate, if_pos rfl] at hshape
    have hplain := validateAlias_eq_false hlib hascii hcandidate hshape
    obtain ⟨hverdict, rfl⟩ := (validateAndCanonicalize_emoji_iff hplain).1 h
    obtain ⟨hfilled, haccepted⟩ := graphemes_of_ok hverdict
    refine ⟨hfilled, ?_⟩
    rw [← hlib.join_graphemes (canonicalizeEmojiAlias cfg.lib requested)]
    exact isAliasPathChar_join hblocks haccepted
  | false =>
    have hchars := isEmojiCandidate_eq_false.1 hcandidate
    have hvalid : validateAlias requested = true := by
      simp only [validateAlias, hchars, Bool.true_or]
    rw [validateAndCanonicalizeCustomAlias, if_pos hvalid] at h
    obtain rfl := Except.ok.inj h
    exact ⟨hne, fun c hc => isAliasPathChar_of_isAliasChar (List.all_eq_true.1 hchars c hc)⟩

theorem isPathCode_of_shortCode (drawn : ShortCode 7) : IsPathCode drawn.code := by
  refine ⟨?_, fun c hc => ?_⟩
  · intro hempty
    have hlength := drawn.length_code
    rw [hempty] at hlength
    cases hlength
  · have halphanum := List.all_eq_true.1 drawn.alphanumeric c hc
    exact isAliasPathChar_of_isAliasChar (by simp [isAliasChar, halphanum])

theorem isPathCode_of_emojiCode (hblocks : cfg.lib.InBlocks) {maxVersion : Rat} {length : Nat}
    (hlength : 0 < length) (drawn : EmojiCode cfg.lib maxVersion length) : IsPathCode drawn.code := by
  have haccepted : ∀ emoji ∈ drawn.emojis, graphemeAccepted cfg.lib emoji maxVersion = true := by
    intro emoji hemoji
    have hpool := drawn.inPool emoji hemoji
    rw [inGenerationPool, Bool.and_eq_true] at hpool
    exact hpool.1
  refine ⟨?_, isAliasPathChar_join hblocks haccepted⟩
  intro hempty
  obtain ⟨emoji, hemoji⟩ : ∃ emoji, emoji ∈ drawn.emojis := by
    refine List.exists_mem_of_length_pos ?_
    rw [drawn.length_emojis]
    exact hlength
  obtain ⟨c, hc⟩ := List.exists_mem_of_ne_nil _ (toList_ne_nil_of_graphemeAccepted (haccepted emoji hemoji))
  have hmem : c ∈ drawn.code.toList := by
    rw [EmojiCode.code, String.toList_join, List.mem_flatMap]
    exact ⟨emoji, hemoji, hc⟩
  rw [hempty] at hmem
  cases hmem

end

/-- The alias of a new link can be read on a custom domain, on every path that decodes to it, if and only if it
is not the word of the password form. -/
theorem new_alias_reachable_iff {cfg : AliasConfig} (hlib : cfg.lib.Lawful) (hascii : cfg.lib.NonAscii)
    (hblocks : cfg.lib.InBlocks) {maxVersion : Rat} {length : Nat} (hlength : 0 < length)
    (draws : Nat → EmojiCode cfg.lib maxVersion length) (env : CreateEnv) (edge : EdgeConfig)
    (request : CreateUrlRequest) (ownerId : Option ObjectId) (clientIp : String) (domain : Option String)
    (now : Int) (s : Stores) (doc : UrlV2Doc) (claimToken : Option String)
    (hshape : validateAliasShape cfg.lib request.linkAlias = .ok ())
    (hcreate : (create ((env.onSite draws).onStores cfg s) edge request ownerId clientIp domain now s).1 =
      .ok (doc, claimToken))
    (hopen : "/" ++ doc.linkAlias ∉ reservedPrefixes) :
    (∀ text method, PercentEncoding.unquote text = doc.linkAlias → method ∈ ["GET", "HEAD"] →
        isAllowedOnCustomTenant ("/" ++ text) method = true) ↔
      doc.linkAlias ≠ "password" := by
  obtain ⟨row, hbuild, hdoc⟩ : ∃ row, buildRow ((env.onSite draws).onStores cfg s) request ownerId clientIp
      domain
      now s = .ok row ∧ doc.linkAlias = row.linkAlias := by
    rcases create_cases edge with ⟨-, hfailed⟩ | ⟨row, urls, hbuild, -, hnew⟩
    · exact absurd hcreate (hfailed _)
    · rw [hnew] at hcreate
      cases hcreate
      exact ⟨row, hbuild, rfl⟩
  obtain ⟨metaTags, linkAlias, tagIds, -, halias, rfl⟩ := buildRow_ok hbuild
  obtain rfl : doc.linkAlias = linkAlias := hdoc
  have hcode : IsPathCode doc.linkAlias := by
    rcases chooseAlias_ok halias with ⟨requested, hrequested, hcanonical, -⟩ | ⟨-, -, hfound⟩ | ⟨-, hfound⟩
    · obtain ⟨hasked, hne⟩ := Option.filter_eq_some_iff.1 hrequested
      rw [hasked] at hshape
      exact isPathCode_of_custom hlib hascii hblocks (of_decide_eq_true hne) hshape hcanonical
    · obtain ⟨n, -, hdrawn⟩ := List.mem_map.1 (List.mem_of_find?_eq_some hfound)
      rw [← hdrawn]
      exact isPathCode_of_emojiCode hblocks hlength (draws n)
    · obtain ⟨n, -, hdrawn⟩ := List.mem_map.1 (List.mem_of_find?_eq_some hfound)
      rw [← hdrawn]
      exact isPathCode_of_shortCode _
  constructor
  · intro hall hpassword
    have hword : PercentEncoding.unquote "password" = doc.linkAlias := by
      rw [hpassword]
      exact PercentEncoding.unquote_of_not_hasEscape (by decide)
    have hallowed := hall "password" "GET" hword (by decide)
    rw [isAllowedOnCustomTenant_iff hword hcode.1 hcode.2 hopen (by decide)] at hallowed
    exact hallowed rfl
  · intro hne text method htext hmethod
    rw [isAllowedOnCustomTenant_iff htext hcode.1 hcode.2 hopen hmethod]
    rintro rfl
    exact hne (htext ▸ PercentEncoding.unquote_of_not_hasEscape (by decide))

theorem inBlocks_starEmojiLib : starEmojiLib.InBlocks := by
  intro emoji c tone hdata hchars _
  have hstar : emoji = "⭐" := by
    by_contra hne
    simp [starEmojiLib, hne] at hdata
  subst hstar
  obtain rfl : '⭐' = c := (List.cons.inj hchars).1
  decide

theorem inGenerationPool_star :
    ∀ emoji ∈ ["⭐"], inGenerationPool plainAliases.lib defaultGenerateMaxVersion emoji = true := by
  decide +kernel

theorem length_star : ["⭐"].length = 1 := rfl

/-- A site that draws one star at a time. -/
def oneStar (_ : Nat) : EmojiCode plainAliases.lib defaultGenerateMaxVersion 1 :=
  ⟨["⭐"], length_star, inGenerationPool_star⟩

/-- A link with a custom alias is created on `go.example`. -/
def createOnCustom (linkAlias : String) : Except Raised (UrlV2Doc × Option String) × Stores :=
  create ((openCreateEnv.onSite oneStar).onStores plainAliases noLinks) plainEdge
    { scheduledRequest with linkAlias := some linkAlias } (some 7) "192.0.2.1" (some "go.example") 0 noLinks

theorem new_alias_reachable_iff_promo : ∃ doc claimToken, (createOnCustom "promo").1 = .ok (doc, claimToken) ∧
    ((∀ text method, PercentEncoding.unquote text = doc.linkAlias → method ∈ ["GET", "HEAD"] →
        isAllowedOnCustomTenant ("/" ++ text) method = true) ↔
      doc.linkAlias ≠ "password") := by
  have hstored : ((createOnCustom "promo").1.toOption.map fun result => result.1.linkAlias) = some "promo" := by
    decide +kernel
  have hshape : validateAliasShape plainAliases.lib (some "promo") = .ok () :=
    (validateAliasShape_iff (by decide)).2 (by decide +kernel)
  cases hresult : (createOnCustom "promo").1 with
  | error e =>
    rw [hresult] at hstored
    cases hstored
  | ok result =>
    rw [hresult] at hstored
    have halias : result.1.linkAlias = "promo" := Option.some.inj hstored
    have hopen : "/" ++ result.1.linkAlias ∉ reservedPrefixes := by
      rw [halias]
      decide
    exact ⟨result.1, result.2, rfl, new_alias_reachable_iff lawful_starEmojiLib nonAscii_starEmojiLib
      inBlocks_starEmojiLib (by decide) oneStar openCreateEnv plainEdge
      { scheduledRequest with linkAlias := some "promo" } (some 7) "192.0.2.1" (some "go.example") 0 noLinks
        result.1
      result.2 hshape hresult hopen⟩

/-- A link is stored as `password` on a custom domain, where its path takes a form and nothing else. -/
theorem password_alias_unreachable :
    ((createOnCustom "password").1.toOption.map fun result => (result.1.linkAlias, result.1.domain)) =
        some ("password", "go.example") ∧
      "/password" ∉ reservedPrefixes ∧ isAllowedOnCustomTenant "/password" "GET" = false ∧
      isAllowedOnCustomTenant "/password" "HEAD" = false ∧ isAllowedOnCustomTenant "/password" "POST" = true := by
  refine ⟨by decide +kernel, by decide, ?_, ?_, ?_⟩
  all_goals decide +kernel

/-! ## The two tests of an alias -/

/-- The legacy form tests an alias with `validate_alias`, the API and the dispatcher with
`is_emoji_candidate`, and a custom domain with its own pattern. They agree on what an alias is made of. -/
structure AliasTestsAgree (linkAlias : String) : Prop where
  chars : validateAlias linkAlias = true ↔ ∀ c ∈ linkAlias.toList, isAliasChar c = true
  notEmoji : validateAlias linkAlias = true → isEmojiCandidate linkAlias = false
  carried : validateAlias linkAlias = true → ∀ c ∈ linkAlias.toList, isAliasPathChar c = true

theorem all_isAliasChar_iff (linkAlias : String) :
    linkAlias.toList.all isAliasChar = true ↔ ∀ c ∈ linkAlias.toList, isAliasChar c = true :=
  List.all_eq_true

/-- The pattern accepts the texts of its characters, and those with a line break behind. -/
theorem validateAlias_iff (linkAlias : String) :
    validateAlias linkAlias = true ↔ linkAlias.toList.all isAliasChar = true ∨
      ∃ text : List Char, text.all isAliasChar = true ∧ linkAlias.toList = text ++ ['\n'] := by
  rw [validateAlias, Bool.or_eq_true, Bool.and_eq_true, decide_eq_true_eq]
  refine or_congr_right ?_
  constructor
  · rintro ⟨hlast, htext⟩
    exact ⟨_, htext, (List.dropLast_append_getLast? '\n' hlast).symm⟩
  · rintro ⟨text, htext, happend⟩
    rw [happend]
    simpa using htext

theorem isAliasChar_newline : isAliasChar '\n' = false := by decide

/-- The tests agree on every alias but one: the text of an alias with a line break behind it. -/
theorem aliasTestsAgree_iff (linkAlias : String) :
    AliasTestsAgree linkAlias ↔
      ¬∃ text : List Char, text.all isAliasChar = true ∧ linkAlias.toList = text ++ ['\n'] := by
  constructor
  · rintro hagree ⟨text, htext, happend⟩
    have hvalid : validateAlias linkAlias = true := (validateAlias_iff linkAlias).2 (.inr ⟨text, htext, happend⟩)
    have hbreak : '\n' ∈ linkAlias.toList := by
      rw [happend]
      simp
    have hchar := hagree.chars.1 hvalid '\n' hbreak
    rw [isAliasChar_newline] at hchar
    cases hchar
  · intro hbreak
    have hchars : validateAlias linkAlias = true ↔ linkAlias.toList.all isAliasChar = true := by
      rw [validateAlias_iff]
      exact or_iff_left hbreak
    constructor
    · rw [hchars, all_isAliasChar_iff]
    · intro hvalid
      exact isEmojiCandidate_eq_false.2 (hchars.1 hvalid)
    · intro hvalid c hc
      exact isAliasPathChar_of_isAliasChar ((all_isAliasChar_iff linkAlias).1 (hchars.1 hvalid) c hc)

/-- An alias that ends in a line break is accepted, and then treated as an emoji. -/
theorem line_break_accepted :
    validateAlias "abc\n" = true ∧ '\n' ∈ "abc\n".toList ∧ isAliasChar '\n' = false ∧
      isAliasPathChar '\n' = false ∧ isEmojiCandidate "abc\n" = true ∧ ¬AliasTestsAgree "abc\n" := by
  refine ⟨by decide, by decide, by decide, by decide, by decide, ?_⟩
  intro hagree
  have hplain := hagree.notEmoji (by decide)
  exact absurd hplain (by decide)

end Spoo
