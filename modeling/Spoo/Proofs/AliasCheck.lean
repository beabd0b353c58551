import Spoo.Proofs.NewKeys
import Spoo.Routes.ApiV1.Shorten

/-!
# What an alias check promises, and the reserved words

The v2 methods compare an alias that they are asked for with the reserved words, and so do renames and moves. The
legacy form does not, and neither generator does. The check and the creation read an alias in different layers: a
creation in its request model, then in the service. Both come to the same rules and to the same code.
-/

namespace Spoo

open Fallible Mongo Mongo.Collection UrlService

/-! ## Reserved words that become short codes -/

/-- No emoji is ASCII text. -/
def EmojiLib.NonAscii (lib : EmojiLib) : Prop :=
  ∀ emoji : String, (lib.emojiData emoji).isSome = true →
    ∃ c ∈ emoji.toList, 128 ≤ (lowerChar c).toNat

/-- An operation of the site: the reserved words are those of the list, and emoji aliases are drawn
from the pool. -/
structure SiteChange (cfg : AliasConfig) where
  change : LinkChange cfg
  emojiGenerateMaxVersion : Rat
  emojiGeneratedAliasLength : Nat
  draws : Nat → EmojiCode cfg.lib emojiGenerateMaxVersion emojiGeneratedAliasLength

/-- The environment of a creation on the site. -/
def CreateEnv.onSite {lib : EmojiLib} {maxVersion : Rat} {length : Nat} (env : CreateEnv)
    (draws : Nat → EmojiCode lib maxVersion length) : CreateEnv :=
  { env with isReservedAlias, emojiAlias := fun n => (draws n).code }

namespace SiteChange

variable {cfg : AliasConfig}

/-- The operation, with what the site answers it. -/
def toLinkChange (site : SiteChange cfg) : LinkChange cfg :=
  match site.change with
  | .create env request ownerId clientIp domain now =>
    .create (env.onSite site.draws) request ownerId clientIp domain now
  | .update env urlId request ownerId clientIp now =>
    .update { env with isReservedAlias } urlId request ownerId clientIp now
  | .bulkMoveDomain env ids domain ownerId now =>
    .bulkMoveDomain { env with isReservedAlias } ids domain ownerId now
  | .shorten env request => .shorten env request
  | .emoji env request => .emoji env request

/-- Run the operation. -/
def run (edge : EdgeConfig) (s : Stores) (site : SiteChange cfg) : Stores :=
  site.toLinkChange.run edge s

/-- The operation succeeds. -/
def Succeeds (edge : EdgeConfig) (s : Stores) (site : SiteChange cfg) : Prop :=
  site.toLinkChange.Succeeds edge s

/-- The operation takes a code for the system domain that it does not compare with the reserved
words: the one the legacy form is given, or the first free draw of a generator. -/
def TakesUnchecked (s : Stores) (code : String) (site : SiteChange cfg) : Prop :=
  match site.change with
  | .create env request _ _ domain _ =>
    orNone request.linkAlias = none ∧ request.aliasType = .alphanumeric ∧
      scopeOf cfg.toDispatchConfig domain = cfg.systemDefaultDomain ∧
      ((List.range 10).map fun n => (env.shortCode n).code).find? (fun candidate =>
        !UrlRepository.checkAliasExists s.urls candidate cfg.systemDefaultDomain) = some code
  | .shorten env request =>
    match request.field "alias" with
    | some requested => code = String.ofList (requested.toList.take 16)
    | none => ((List.range 20).map fun n => (env.shortCode n).code).find? (fun candidate =>
        !LegacyUrlRepository.checkExists s.legacy candidate &&
          !UrlRepository.checkAliasExists s.urls candidate cfg.systemDefaultDomain) = some code
  | _ => False

/-- That code is a reserved word. -/
def TakesReserved (s : Stores) (site : SiteChange cfg) : Prop :=
  ∃ code, site.TakesUnchecked s code ∧ isReservedAlias code = true

end SiteChange

/-- No link of the system domain has a reserved alias. -/
structure NoneReserved (cfg : DispatchConfig) (s : Stores) : Prop where
  v2 : ∀ linkAlias, HasKey s.urls cfg.systemDefaultDomain linkAlias →
    isReservedAlias linkAlias = false
  v1 : ∀ row ∈ s.legacy.docs, isReservedAlias row.code = false
  emoji : ∀ row ∈ s.emoji.docs, isReservedAlias row.code = false

/-! ## Emoji -/

section

variable {cfg : AliasConfig} {s : Stores} {linkAlias : String}

/-- Text made of accepted emoji is not reserved. -/
theorem not_reserved_join (hascii : cfg.lib.NonAscii) {emojis : List String} {maxVersion : Rat}
    (h : ∀ emoji ∈ emojis, graphemeAccepted cfg.lib emoji maxVersion = true) :
    isReservedAlias (String.join emojis) = false := by
  by_contra hreserved
  obtain ⟨hne, hlow⟩ := ascii_of_isReservedAlias (by simpa using hreserved)
  have hsome : ∃ emoji, emoji ∈ emojis := by
    refine List.exists_mem_of_ne_nil _ ?_
    rintro rfl
    exact hne rfl
  obtain ⟨emoji, hemoji⟩ := hsome
  have hdata : (cfg.lib.emojiData emoji).isSome = true := by
    have haccepted := h emoji hemoji
    unfold graphemeAccepted at haccepted
    split at haccepted
    · cases haccepted
    · rename_i hdatum
      rw [hdatum]
      rfl
  obtain ⟨c, hc, hhigh⟩ := hascii emoji hdata
  have hmem : c ∈ (String.join emojis).toList := by
    rw [String.toList_join, List.mem_flatMap]
    exact ⟨emoji, hemoji, hc⟩
  have := hlow c hmem
  omega

theorem EmojiCode.not_reserved (hascii : cfg.lib.NonAscii) {maxVersion : Rat} {length : Nat}
    (drawn : EmojiCode cfg.lib maxVersion length) : isReservedAlias drawn.code = false := by
  have haccepted : ∀ emoji ∈ drawn.emojis, graphemeAccepted cfg.lib emoji maxVersion = true := by
    intro emoji hemoji
    have hpool := drawn.inPool emoji hemoji
    rw [inGenerationPool, Bool.and_eq_true] at hpool
    exact hpool.1
  exact not_reserved_join hascii haccepted

theorem not_reserved_of_ok (hlib : cfg.lib.Lawful) (hascii : cfg.lib.NonAscii) {maxGraphemes : Nat}
    {maxVersion : Rat} (h : checkEmojiAlias cfg.lib linkAlias maxGraphemes maxVersion = .ok) :
    isReservedAlias linkAlias = false := by
  rw [← hlib.join_graphemes linkAlias]
  exact not_reserved_join hascii (graphemes_of_ok h).2

/-- A new emoji link has no reserved code. -/
theorem LinkChange.GivesEmoji.not_reserved (hlib : cfg.lib.Lawful) (hascii : cfg.lib.NonAscii)
    {change : LinkChange cfg} (h : change.GivesEmoji s linkAlias) :
    isReservedAlias linkAlias = false := by
  cases change with
  | emoji env request =>
    change LegacyShortener.chooseEmojies env request s = .ok linkAlias at h
    unfold LegacyShortener.chooseEmojies at h
    split at h
    · dsimp only at h
      split at h
      · cases h
      · rename_i hcheck
        split at h
        · cases h
        · cases h
          exact not_reserved_of_ok hlib hascii (not_not.1 hcheck)
    · split at h
      · rename_i hfind
        cases h
        obtain ⟨n, -, rfl⟩ := List.mem_map.1 (List.mem_of_find?_eq_some hfind)
        exact (env.emojiCode n).not_reserved hascii
      · cases h
  | _ => cases h

end

/-! ## One operation -/

/-- Where the code of a v1 link comes from. -/
theorem LegacyShortener.chooseShortCode_cases {cfg : AliasConfig} {env : LegacyEnv cfg}
    {request : LegacyRequest} {s : Stores} {url code : String}
    (h : chooseShortCode env request url s = .ok code) :
    (∃ requested, request.field "alias" = some requested ∧
        code = String.ofList (requested.toList.take 16)) ∨
      request.field "alias" = none ∧
        ((List.range 20).map fun n => (env.shortCode n).code).find? (fun candidate =>
          !LegacyUrlRepository.checkExists s.legacy candidate &&
            !UrlRepository.checkAliasExists s.urls candidate cfg.systemDefaultDomain) =
          some code := by
  unfold chooseShortCode at h
  split at h
  · rename_i requested hrequested
    dsimp only at h
    split at h
    · cases h
    · split at h
      · cases h
      · exact .inl ⟨requested, hrequested, (Except.ok.inj h).symm⟩
  · rename_i hnone
    split at h
    · rename_i hfind
      exact .inr ⟨hnone, (Except.ok.inj h) ▸ hfind⟩
    · cases h

namespace SiteChange

variable {cfg : AliasConfig} {edge : EdgeConfig} {s : Stores} {site : SiteChange cfg}
  {code : String}

/-- Of the v2 keys, a reserved one is given by a draw alone. -/
theorem takesUnchecked_of_givesKey (hascii : cfg.lib.NonAscii)
    (h : site.toLinkChange.GivesKey s cfg.systemDefaultDomain code)
    (hreserved : isReservedAlias code = true) : site.TakesUnchecked s code := by
  obtain ⟨change, maxVersion, length, draws⟩ := site
  cases change with
  | create env request ownerId clientIp domain now =>
    obtain ⟨hscope, hchoose⟩ := h
    rcases chooseAlias_ok hchoose with ⟨_, -, -, hopen, -⟩ | ⟨-, -, hfind⟩ | ⟨⟨hnone, htype⟩, hfind⟩
    · exact absurd ⟨rfl, hreserved⟩ hopen
    · obtain ⟨n, -, hdraw⟩ := List.mem_map.1 (List.mem_of_find?_eq_some hfind)
      have hcode : (draws n).code = code := hdraw
      rw [← hcode, (draws n).not_reserved hascii] at hreserved
      cases hreserved
    · exact ⟨hnone, htype, hscope.symm, hfind⟩
  | update => exact absurd ⟨rfl, hreserved⟩ h.1
  | bulkMoveDomain => exact absurd ⟨rfl, hreserved⟩ h.1
  | shorten => cases h
  | emoji => cases h

theorem takesUnchecked_of_givesCode (h : site.toLinkChange.GivesCode s code) :
    site.TakesUnchecked s code := by
  obtain ⟨change, maxVersion, length, draws⟩ := site
  cases change with
  | shorten env request =>
    obtain ⟨url, hchoose⟩ := h
    unfold TakesUnchecked
    rcases LegacyShortener.chooseShortCode_cases hchoose with ⟨_, hfield, hcode⟩ | ⟨hfield, hfind⟩
    · simp only [hfield, hcode]
    · simp only [hfield, hfind]
  | _ => cases h

/-- An operation that fails stores nothing. -/
theorem TakesUnchecked.run_or_succeeds (h : site.TakesUnchecked s code) :
    site.run edge s = s ∨ site.Succeeds edge s := by
  obtain ⟨change, maxVersion, length, draws⟩ := site
  cases change with
  | create env request ownerId clientIp domain now =>
    obtain ⟨hsame, -⟩ | ⟨_, _, -, -, hcreate⟩ := @create_cases ((env.onSite draws).onStores cfg s)
      request ownerId clientIp domain now s edge
    · exact .inl hsame
    · exact .inr ⟨_, congrArg Prod.fst hcreate⟩
  | shorten env request =>
    obtain hsame | ⟨row, _, hbuild, hinsert, -⟩ := @LegacyShortener.shortenUrl_cases cfg s env request
    · exact .inl hsame
    · exact .inr ⟨row, hbuild, Option.isSome_of_mem hinsert⟩
  | _ => cases h

/-- One that succeeds stores a link under the code. -/
theorem TakesUnchecked.stored (h : site.TakesUnchecked s code) (hdone : site.Succeeds edge s) :
    HasKey (site.run edge s).urls cfg.systemDefaultDomain code ∨
      ∃ row ∈ (site.run edge s).legacy.docs, row.code = code := by
  obtain ⟨change, maxVersion, length, draws⟩ := site
  cases change with
  | create env request ownerId clientIp domain now =>
    obtain ⟨hnone, htype, hscope, hfind⟩ := h
    obtain ⟨result, hresult⟩ := hdone
    obtain ⟨-, hfailed⟩ | ⟨row, urls, hbuild, hinsert, hcreate⟩ := @create_cases
      ((env.onSite draws).onStores cfg s) request ownerId clientIp domain now s edge
    · exact absurd hresult (hfailed result)
    obtain ⟨metaTags, linkAlias, tagIds, -, hchoose, hrow⟩ := buildRow_ok hbuild
    have htarget : targetDomain ((env.onSite draws).onStores cfg s).toUpdateEnv domain =
        cfg.systemDefaultDomain := (targetDomain_onStores _ cfg s domain).trans hscope
    rw [htarget] at hchoose hrow
    have halias : linkAlias = code := by
      rcases chooseAlias_ok hchoose with ⟨_, hsome, -⟩ | ⟨-, hemoji, -⟩ | ⟨-, hdrawn⟩
      · rw [hnone] at hsome
        cases hsome
      · rw [htype] at hemoji
        cases hemoji
      · exact Option.some.inj (hdrawn.symm.trans hfind)
    have hurls : (run edge s ⟨.create env request ownerId clientIp domain now, maxVersion, length,
        draws⟩).urls = urls := congrArg (fun r => r.2.urls) hcreate
    refine .inl ⟨row, ?_, by rw [hrow]; rfl, by rw [hrow, ← halias]; rfl⟩
    rw [hurls, (insertOne_eq_some hinsert).2.2]
    simp
  | shorten env request =>
    obtain ⟨row, hbuild, hinsert⟩ := hdone
    obtain ⟨legacy, hlegacy⟩ := Option.isSome_iff_exists.1 hinsert
    have hstored : (run edge s ⟨.shorten env request, maxVersion, length, draws⟩).legacy =
        legacy := by
      show (LegacyShortener.shortenUrl env request s).2.legacy = legacy
      simp only [LegacyShortener.shortenUrl, hbuild, hlegacy]
    obtain ⟨url, hchoose⟩ := LegacyShortener.buildShorten_ok hbuild
    refine .inr ⟨row, by rw [hstored, (insertOne_eq_some hlegacy).2.2]; simp, ?_⟩
    unfold TakesUnchecked at h
    rcases LegacyShortener.chooseShortCode_cases hchoose with ⟨_, hfield, hcode⟩ | ⟨hfield, hfind⟩
    · simp only [hfield] at h
      rw [hcode, h]
    · simp only [hfield] at h
      exact Option.some.inj (hfind.symm.trans h)
  | _ => cases h

/-- An operation keeps the system domain free of reserved aliases exactly when it takes none. -/
theorem noneReserved_run_iff (hlib : cfg.lib.Lawful) (hascii : cfg.lib.NonAscii)
    (h : NoneReserved cfg.toDispatchConfig s) :
    NoneReserved cfg.toDispatchConfig (site.run edge s) ↔
      (site.Succeeds edge s → ¬site.TakesReserved s) := by
  constructor
  · rintro hkept hdone ⟨code, htakes, hreserved⟩
    rcases htakes.stored hdone with hkey | ⟨row, hrow, rfl⟩
    · rw [hkept.v2 code hkey] at hreserved
      cases hreserved
    · rw [hkept.v1 row hrow] at hreserved
      cases hreserved
  · intro hguard
    by_cases htakes : site.TakesReserved s
    · obtain ⟨code, hcode, -⟩ := id htakes
      have hend : site.run edge s = s ∨ site.Succeeds edge s := hcode.run_or_succeeds
      rcases hend with hsame | hdone
      · rw [hsame]
        exact h
      · exact absurd htakes (hguard hdone)
    · refine ⟨?_, fun row hrow => ?_, fun row hrow => ?_⟩
      · rintro _ ⟨row, hrow, hdomain, rfl⟩
        have hkey := site.toLinkChange.hasKey_run hrow
        rw [hdomain] at hkey
        rcases hkey with hold | hgiven
        · exact h.v2 _ hold
        · rw [← Bool.not_eq_true]
          exact fun hreserved =>
            htakes ⟨_, takesUnchecked_of_givesKey hascii hgiven hreserved, hreserved⟩
      · rcases site.toLinkChange.legacy_run hrow with hold | hgiven
        · exact h.v1 row hold
        · rw [← Bool.not_eq_true]
          exact fun hreserved => htakes ⟨_, takesUnchecked_of_givesCode hgiven, hreserved⟩
      · rcases site.toLinkChange.emoji_run hrow with hold | hgiven
        · exact h.emoji row hold
        · exact hgiven.not_reserved hlib hascii

end SiteChange

/-! ## Runs -/

/-- No state of a run has a link of the system domain under a reserved alias exactly when no
operation that succeeds takes one. -/
theorem none_reserved_iff {cfg : AliasConfig} (edge : EdgeConfig) (hlib : cfg.lib.Lawful)
    (hascii : cfg.lib.NonAscii) {s : Stores} (hstart : NoneReserved cfg.toDispatchConfig s)
    (sites : List (SiteChange cfg)) :
    (∀ t ∈ List.scanl (SiteChange.run edge) s sites, NoneReserved cfg.toDispatchConfig t) ↔
      Run.Guarded (SiteChange.run edge)
        (fun s site => site.Succeeds edge s → ¬site.TakesReserved s) s sites :=
  Run.forall_mem_scanl_iff (fun _ _ h => SiteChange.noneReserved_run_iff hlib hascii h) hstart

theorem nonAscii_starEmojiLib : starEmojiLib.NonAscii := by
  intro emoji hdata
  have hstar : emoji = "⭐" := by
    by_contra hne
    simp [starEmojiLib, hne] at hdata
  exact hstar ▸ ⟨'⭐', by decide, by decide⟩

/-- The operation, on a site that draws one star at a time. -/
def onStarSite (change : LinkChange plainAliases) : SiteChange plainAliases where
  change
  emojiGenerateMaxVersion := defaultGenerateMaxVersion
  emojiGeneratedAliasLength := 1
  draws _ := ⟨["⭐"], rfl, by decide +kernel⟩

theorem noneReserved_noLinks : NoneReserved plainAliases.toDispatchConfig noLinks where
  v2 := by
    rintro _ ⟨_, hrow, -⟩
    cases hrow
  v1 _ hrow := by cases hrow
  emoji _ hrow := by cases hrow

theorem none_reserved_iff_promo :
    NoneReserved plainAliases.toDispatchConfig noLinks ∧
    ((∀ t ∈ List.scanl (SiteChange.run plainEdge) noLinks [onStarSite (shortenAs "promo")],
        NoneReserved plainAliases.toDispatchConfig t) ↔
      Run.Guarded (SiteChange.run plainEdge)
        (fun s site => site.Succeeds plainEdge s → ¬site.TakesReserved s) noLinks
        [onStarSite (shortenAs "promo")]) :=
  ⟨noneReserved_noLinks, none_reserved_iff plainEdge lawful_starEmojiLib nonAscii_starEmojiLib
    noneReserved_noLinks _⟩

/-- A v2 link is drawn. -/
def drawAs (code : ShortCode 7) : LinkChange plainAliases :=
  .create { openCreateEnv with shortCode := fun _ => code } scheduledRequest (some 7) "192.0.2.1"
    none 0

/-- A v1 link is drawn. -/
def drawLegacyAs (code : ShortCode 6) : LinkChange plainAliases :=
  .shorten { plainLegacyEnv with shortCode := fun _ => code } {
    form := PyDict.ofList [("url", "https://b.example/")]
    hostUrl := "https://spoo.me/"
    hostname := "spoo.me" }

/-- The legacy form takes a reserved word, and so do the draws of both generators. -/
theorem reserved_codes_issued : NoneReserved plainAliases.toDispatchConfig noLinks ∧
    ¬NoneReserved plainAliases.toDispatchConfig
      ((onStarSite (shortenAs "about")).run plainEdge noLinks) ∧
    ¬NoneReserved plainAliases.toDispatchConfig
      ((onStarSite (drawAs ⟨"Billing", by decide, by decide⟩)).run plainEdge noLinks) ∧
    ¬NoneReserved plainAliases.toDispatchConfig
      ((onStarSite (drawLegacyAs ⟨"images", by decide, by decide⟩)).run plainEdge noLinks) := by
  have hv1 (change : LinkChange plainAliases) (word : String) (hword : isReservedAlias word = true)
      (hstored : ∃ row ∈ ((onStarSite change).run plainEdge noLinks).legacy.docs,
        row.code = word) :
      ¬NoneReserved plainAliases.toDispatchConfig ((onStarSite change).run plainEdge noLinks) := by
    rintro ⟨-, hnone, -⟩
    obtain ⟨row, hrow, rfl⟩ := hstored
    rw [hnone row hrow] at hword
    cases hword
  refine ⟨noneReserved_noLinks, hv1 _ "about" (by decide +kernel) ?_, ?_,
    hv1 _ "images" (by decide +kernel) ?_⟩
  · decide +kernel
  · rintro ⟨hnone, -, -⟩
    have hstored : HasKey ((onStarSite (drawAs ⟨"Billing", by decide, by decide⟩)).run plainEdge
        noLinks).urls "spoo.me" "Billing" := by
      unfold HasKey
      decide +kernel
    exact absurd (hnone "Billing" hstored) (by decide +kernel)
  · decide +kernel

/-! ## What an alias check promises -/

/-- The code an alias is stored under may be taken: an emoji alias is accepted, another one has a
length in bounds and is not reserved where words are. -/
def WellFormedAlias (cfg : AliasConfig) (scope linkAlias : String) : Prop :=
  if isEmojiCandidate linkAlias then
    checkEmojiAlias cfg.lib (canonicalizeEmojiAlias cfg.lib linkAlias) cfg.maxEmojiAliasLength
      cfg.emojiAcceptMaxVersion = .ok
  else 3 ≤ linkAlias.length ∧ linkAlias.length ≤ 16 ∧
    ¬(scope = cfg.systemDefaultDomain ∧ isReservedAlias linkAlias = true)

/-- And that code is free. -/
def FreeAlias (cfg : AliasConfig) (s : Stores) (scope linkAlias : String) : Prop :=
  WellFormedAlias cfg scope linkAlias ∧ checkAliasAvailable cfg.toDispatchConfig s
    (canonicalizeEmojiAlias cfg.lib linkAlias) (some scope) = true

section

variable {cfg : AliasConfig} {s : Stores} {linkAlias : String}

theorem isEmojiCandidate_eq_false :
    isEmojiCandidate linkAlias = false ↔ linkAlias.toList.all isAliasChar = true := by
  rw [isEmojiCandidate, Bool.not_eq_false']

@[simp] theorem checkAliasAvailable_scopeOf (cfg : DispatchConfig) (s : Stores) (code : String)
    (domain : Option String) :
    checkAliasAvailable cfg s code (some (scopeOf cfg domain)) =
      checkAliasAvailable cfg s code domain := by
  unfold checkAliasAvailable
  rw [scopeOf_scopeOf]

/-! ## The check -/

theorem checkAlias_eq_available_iff (hlib : cfg.lib.Lawful) (domain : Option String) :
    UrlService.checkAlias cfg s linkAlias domain = .available ↔
      FreeAlias cfg s (scopeOf cfg.toDispatchConfig domain) linkAlias := by
  rw [FreeAlias, WellFormedAlias, checkAliasAvailable_scopeOf]
  unfold UrlService.checkAlias
  cases hcandidate : isEmojiCandidate linkAlias with
  | true =>
    simp only [if_true]
    cases hverdict : checkEmojiAlias cfg.lib (canonicalizeEmojiAlias cfg.lib linkAlias)
        cfg.maxEmojiAliasLength cfg.emojiAcceptMaxVersion with
    | ok =>
      have hshape := (isEmojiOnlyShape_of_ok hlib hverdict).2
      cases checkAliasAvailable cfg.toDispatchConfig s (canonicalizeEmojiAlias cfg.lib linkAlias)
        domain <;> simp [hshape]
    | _ =>
      cases isEmojiOnlyShape cfg.lib (canonicalizeEmojiAlias cfg.lib linkAlias) <;> simp
  | false =>
    have hchars := isEmojiCandidate_eq_false.1 hcandidate
    have hvalid : validateAlias linkAlias = true := by simp only [validateAlias, hchars, Bool.true_or]
    rw [canonicalizeEmojiAlias_of_alphanumeric hlib hchars]
    by_cases hlength : 3 ≤ linkAlias.length ∧ linkAlias.length ≤ 16
    · by_cases hreserved : scopeOf cfg.toDispatchConfig domain = cfg.systemDefaultDomain ∧
          isReservedAlias linkAlias = true
      · simp [hvalid, hlength, hreserved]
      · cases checkAliasAvailable cfg.toDispatchConfig s linkAlias domain <;>
          simp [hvalid, hlength, hreserved]
    · simp only [Bool.false_eq_true, if_false, hlength, decide_false, Bool.not_false, if_true]
      refine iff_of_false (by simp) ?_
      rintro ⟨⟨hmin, hmax, -⟩, -⟩
      exact hlength ⟨hmin, hmax⟩

/-! ## The creation -/

theorem lowerChar_lt {c : Char} (h : c.toNat < 128) : (lowerChar c).toNat < 128 := by
  have hascii : ∀ n < 128, (lowerChar (Char.ofNat n)).toNat < 128 := by decide +kernel
  have hlower := hascii c.toNat h
  rwa [Char.ofNat_toNat] at hlower

/-- Emoji are no alphanumeric text, not even with the final newline that `validate_alias` lets
through. -/
theorem validateAlias_eq_false (hlib : cfg.lib.Lawful) (hascii : cfg.lib.NonAscii)
    (hcandidate : isEmojiCandidate linkAlias = true)
    (hshape : isEmojiOnlyShape cfg.lib linkAlias = true) : validateAlias linkAlias = false := by
  rw [← Bool.not_eq_true]
  intro hvalid
  have hchars : ∀ c ∈ linkAlias.toList, isAliasChar c = true ∨ c = '\n' := by
    rw [validateAlias, Bool.or_eq_true] at hvalid
    rcases hvalid with hall | hlast
    · rw [isEmojiCandidate, hall] at hcandidate
      cases hcandidate
    · simp only [Bool.and_eq_true, decide_eq_true_eq] at hlast
      obtain ⟨hlast, hinit⟩ := hlast
      intro c hc
      rw [← List.dropLast_append_getLast? _ hlast, List.mem_append, List.mem_singleton] at hc
      exact hc.imp_left (List.all_eq_true.1 hinit c)
  have hlow : ∀ c ∈ linkAlias.toList, c.toNat < 128 := by
    intro c hc
    rcases hchars c hc with hchar | rfl
    · exact lt_of_isAliasChar hchar
    · decide
  have hcanonical : canonicalizeEmojiAlias cfg.lib linkAlias = linkAlias := by
    refine canonicalizeEmojiAlias_of_plain hlib (fun c hc => ?_)
      (hlib.normalizeNfc_ascii linkAlias hlow)
    refine ⟨?_, ?_⟩
    · rintro rfl
      exact absurd (hchars _ hc) (by decide)
    · rintro rfl
      exact absurd (hlow _ hc) (by decide)
  obtain ⟨hne, hdata⟩ := isEmojiOnlyShape_iff.1 hshape
  rw [hcanonical] at hne hdata
  have hsome : ∃ grapheme, grapheme ∈ cfg.lib.graphemes linkAlias := by
    refine List.exists_mem_of_ne_nil _ fun hnil => hne ?_
    rw [← hlib.join_graphemes linkAlias, hnil]
    rfl
  obtain ⟨grapheme, hgrapheme⟩ := hsome
  obtain ⟨c, hc, hhigh⟩ := hascii grapheme (hdata grapheme hgrapheme)
  have hmem : c ∈ linkAlias.toList := by
    rw [← hlib.join_graphemes linkAlias, String.toList_join, List.mem_flatMap]
    exact ⟨grapheme, hgrapheme, hc⟩
  have := lowerChar_lt (hlow c hmem)
  omega

theorem validateAliasShape_iff (hne : linkAlias ≠ "") :
    validateAliasShape cfg.lib (some linkAlias) = .ok () ↔
      if isEmojiCandidate linkAlias then isEmojiOnlyShape cfg.lib linkAlias = true
      else 3 ≤ linkAlias.length ∧ linkAlias.length ≤ 16 := by
  cases hcandidate : isEmojiCandidate linkAlias with
  | true =>
    have hchars : linkAlias.toList.all isAliasChar = false := by
      simpa [isEmojiCandidate] using hcandidate
    simp [validateAliasShape, hchars]
  | false =>
    have hchars := isEmojiCandidate_eq_false.1 hcandidate
    by_cases hlength : 3 ≤ linkAlias.length ∧ linkAlias.length ≤ 16
    · simp [validateAliasShape, hne, hchars, hlength]
    · simp [validateAliasShape, hne, hchars, hlength]

/-- The canonical form is the one an accepted emoji alias is stored under. -/
theorem validateAndCanonicalize_emoji_iff {code : String}
    (hplain : validateAlias linkAlias = false) :
    validateAndCanonicalizeCustomAlias cfg linkAlias = .ok code ↔
      checkEmojiAlias cfg.lib (canonicalizeEmojiAlias cfg.lib linkAlias) cfg.maxEmojiAliasLength
          cfg.emojiAcceptMaxVersion = .ok ∧ code = canonicalizeEmojiAlias cfg.lib linkAlias := by
  unfold validateAndCanonicalizeCustomAlias
  rw [hplain]
  cases hverdict : checkEmojiAlias cfg.lib (canonicalizeEmojiAlias cfg.lib linkAlias)
      cfg.maxEmojiAliasLength cfg.emojiAcceptMaxVersion <;>
    simp [hverdict, validationError, eq_comm]

/-- The checks of a custom alias in the service. -/
theorem chooseAlias_asked_iff {env : CreateEnv} {request : CreateUrlRequest} {scope code : String}
    (hne : linkAlias ≠ "") (hasked : request.linkAlias = some linkAlias) :
    chooseAlias (CreateEnv.onStores { env with isReservedAlias } cfg s) request scope s =
        .ok code ↔
      validateAndCanonicalizeCustomAlias cfg linkAlias = .ok code ∧
        ¬(scope = cfg.systemDefaultDomain ∧ isReservedAlias code = true) ∧
        checkAliasAvailable cfg.toDispatchConfig s code (some scope) = true := by
  have hrequested : orNone request.linkAlias = some linkAlias := by
    simp [orNone, hasked, Option.filter_some, hne]
  constructor
  · intro h
    rcases chooseAlias_ok h with ⟨_, hsome, hcanonical, hopen, hfree⟩ | ⟨hnone, -⟩ | ⟨⟨hnone, -⟩, -⟩
    · cases hrequested.symm.trans hsome
      exact ⟨hcanonical, hopen, hfree⟩
    · cases hrequested.symm.trans hnone
    · cases hrequested.symm.trans hnone
  · rintro ⟨hcanonical, hopen, hfree⟩
    unfold chooseAlias
    rw [hrequested]
    refine bind_eq_ok.2 ⟨code, hcanonical, ?_⟩
    have hfree : (CreateEnv.onStores { env with isReservedAlias } cfg s).aliasAvailable code scope =
        true := hfree
    rw [hfree]
    exact if_neg hopen

/-- An alias that is asked for is stored, in its canonical form, exactly when that form is free. -/
theorem freeAlias_iff (hlib : cfg.lib.Lawful) (hascii : cfg.lib.NonAscii) {env : CreateEnv}
    {request : CreateUrlRequest} {scope code : String} (hne : linkAlias ≠ "")
    (hasked : request.linkAlias = some linkAlias) :
    validateAliasShape cfg.lib (some linkAlias) = .ok () ∧
        chooseAlias (CreateEnv.onStores { env with isReservedAlias } cfg s) request scope s =
          .ok code ↔
      FreeAlias cfg s scope linkAlias ∧ code = canonicalizeEmojiAlias cfg.lib linkAlias := by
  rw [validateAliasShape_iff hne, chooseAlias_asked_iff hne hasked, FreeAlias, WellFormedAlias]
  cases hcandidate : isEmojiCandidate linkAlias with
  | true =>
    simp only [if_true]
    constructor
    · rintro ⟨hshape, hcode, hopen, hfree⟩
      have hplain := validateAlias_eq_false hlib hascii hcandidate hshape
      obtain ⟨hverdict, rfl⟩ := (validateAndCanonicalize_emoji_iff hplain).1 hcode
      exact ⟨⟨hverdict, hfree⟩, rfl⟩
    · rintro ⟨⟨hverdict, hfree⟩, rfl⟩
      have hshape := (isEmojiOnlyShape_of_ok hlib hverdict).1
      have hplain := validateAlias_eq_false hlib hascii hcandidate hshape
      have hopen := not_reserved_of_ok hlib hascii hverdict
      exact ⟨hshape, (validateAndCanonicalize_emoji_iff hplain).2 ⟨hverdict, rfl⟩,
        fun hreserved => by simp [hopen] at hreserved, hfree⟩
  | false =>
    have hchars := isEmojiCandidate_eq_false.1 hcandidate
    have hcanonical : validateAndCanonicalizeCustomAlias cfg linkAlias = .ok linkAlias := by
      have hvalid : validateAlias linkAlias = true := by
        simp only [validateAlias, hchars, Bool.true_or]
      simp [validateAndCanonicalizeCustomAlias, hvalid]
    rw [hcanonical, canonicalizeEmojiAlias_of_alphanumeric hlib hchars, Except.ok.injEq]
    simp only [Bool.false_eq_true, if_false]
    constructor
    · rintro ⟨⟨hmin, hmax⟩, rfl, hopen, hfree⟩
      exact ⟨⟨⟨hmin, hmax, hopen⟩, hfree⟩, rfl⟩
    · rintro ⟨⟨⟨hmin, hmax, hopen⟩, hfree⟩, rfl⟩
      exact ⟨⟨hmin, hmax⟩, rfl, hopen, hfree⟩

end

/-! ## The endpoints -/

namespace ShortenApi

variable {cfg : AliasConfig} {api : ShortenApi cfg} {user : Option CurrentUser} {s : Stores}

/-- Apart from the alias and the domain, the body of a creation is in order, and the driver's id is
a new one. -/
structure Accepts (api : ShortenApi cfg) (user : Option CurrentUser) (request : CreateUrlRequest)
    (now : Int) (s : Stores) : Prop where
  features : api.requireFeatures user request = .ok ()
  checks : ∃ metaTags, checkRequest (api.service s).toUpdateEnv request
    ((user.map (·.userId)).getD anonymousOwnerId) now = .ok metaTags
  tags : ∃ tagIds, (api.service s).resolveNewTagIds request.tagIds (user.map (·.userId)) =
    .ok tagIds
  newId : ∀ row ∈ s.urls.docs, row.id ≠ api.env.newId

/-- The domain of a request that gets past `scopedDomain` is the one it names. -/
theorem scopedDomain_ok {message : String} {domain scope : Option String}
    (h : api.scopedDomain message user domain = .ok scope) :
    scopeOf cfg.toDispatchConfig scope = scopeOf cfg.toDispatchConfig domain := by
  unfold scopedDomain at h
  cases hcustom : (orNone domain).filter (· ≠ cfg.systemDefaultDomain) with
  | none =>
    rw [hcustom] at h
    cases h
    cases hdomain : orNone domain with
    | none =>
      rw [scopeOf, scopeOf, hdomain]
      rfl
    | some named =>
      rw [hdomain, Option.filter_eq_none_iff] at hcustom
      have hsystem : named = cfg.systemDefaultDomain := by simpa using hcustom named rfl
      rw [scopeOf, scopeOf, hdomain, hsystem]
      rfl
  | some named =>
    rw [hcustom] at h
    obtain ⟨hdomain, -⟩ := Option.filter_eq_some_iff.1 hcustom
    cases user with
    | none => cases h
    | some user =>
      obtain ⟨_, -, h⟩ := bind_eq_ok.1 h
      cases h
      have hne : named ≠ "" := by simpa using (Option.filter_eq_some_iff.1 hdomain).2
      rw [scopeOf, scopeOf, hdomain]
      simp [orNone, Option.filter_some, hne]

/-- Whom a domain is refused does not depend on what for. -/
theorem scopedDomain_message {message other : String} {domain scope : Option String}
    (h : api.scopedDomain message user domain = .ok scope) :
    api.scopedDomain other user domain = .ok scope := by
  unfold scopedDomain at h ⊢
  cases hcustom : (orNone domain).filter (· ≠ cfg.systemDefaultDomain) with
  | none => simpa only [hcustom] using h
  | some named =>
    rw [hcustom] at h
    cases user with
    | none => cases h
    | some user => exact h

/-- The alias may be asked for on that domain, and its canonical form is free there. -/
def OffersAlias (api : ShortenApi cfg) (user : Option CurrentUser) (s : Stores) (linkAlias : String)
    (fqdn : Option String) : Prop :=
  checkAliasLength linkAlias = .ok () ∧ (∃ scope, api.scopedDomain "" user fqdn = .ok scope) ∧
    FreeAlias cfg s (scopeOf cfg.toDispatchConfig fqdn) linkAlias

theorem checkAlias_available_iff (hlib : cfg.lib.Lawful) {linkAlias : String}
    {domain : Option String} :
    (∃ response, api.checkAlias user ⟨linkAlias, domain⟩ s = .ok response ∧
        response.available = true) ↔
      ∃ fqdn, normDomain api.env.lib domain = .ok fqdn ∧ api.OffersAlias user s linkAlias fqdn := by
  constructor
  · rintro ⟨response, hresponse, havailable⟩
    obtain ⟨query, hquery, hresponse⟩ := bind_eq_ok.1 hresponse
    obtain ⟨⟨⟩, hlength, hquery⟩ := bind_eq_ok.1 hquery
    obtain ⟨fqdn, hfqdn, hquery⟩ := bind_eq_ok.1 hquery
    cases hquery
    obtain ⟨scope, hscope, hresponse⟩ := bind_eq_ok.1 hresponse
    cases hresponse
    have hcheck := (checkAlias_eq_available_iff hlib scope).1 (of_decide_eq_true havailable)
    rw [scopedDomain_ok hscope] at hcheck
    exact ⟨fqdn, hfqdn, hlength, ⟨scope, scopedDomain_message hscope⟩, hcheck⟩
  · rintro ⟨fqdn, hfqdn, hlength, ⟨scope, hscope⟩, hfree⟩
    rw [← scopedDomain_ok hscope] at hfree
    have hcheck := (checkAlias_eq_available_iff hlib scope).2 hfree
    refine ⟨⟨true, none⟩, bind_eq_ok.2 ⟨⟨linkAlias, fqdn⟩, ?_, ?_⟩, rfl⟩
    · exact bind_eq_ok.2 ⟨(), hlength, bind_eq_ok.2 ⟨fqdn, hfqdn, rfl⟩⟩
    · refine bind_eq_ok.2 ⟨scope, scopedDomain_message hscope, ?_⟩
      simp only [hcheck, decide_true, if_true]

/-- A link is stored under the key. -/
def StoresLink (before after : Stores) (domain linkAlias : String) : Prop :=
  ∃ row, row.domain = domain ∧ row.linkAlias = linkAlias ∧
    before.urls.insertOne row = some after.urls

/-- A creation whose alias is free goes through. -/
theorem shorten_of_offersAlias (hlib : cfg.lib.Lawful) (hascii : cfg.lib.NonAscii)
    {request : CreateUrlRequest} {clientIp linkAlias : String} {now : Int}
    {domain fqdn : Option String} (hvalid : api.Accepts user request now s)
    (hdomain : normDomain api.env.lib domain = .ok fqdn)
    (h : api.OffersAlias user s linkAlias fqdn) :
    ∃ created after,
      api.shorten user clientIp now ⟨{ request with linkAlias := some linkAlias }, domain⟩ s =
        (.ok created, after) ∧
      StoresLink s after (scopeOf cfg.toDispatchConfig fqdn)
        (canonicalizeEmojiAlias cfg.lib linkAlias) := by
  obtain ⟨hlength, ⟨scope, hscope⟩, hfree⟩ := h
  have hne : linkAlias ≠ "" := by
    rintro rfl
    cases hlength
  have htarget : targetDomain (api.service s).toUpdateEnv scope =
      scopeOf cfg.toDispatchConfig fqdn :=
    (targetDomain_onStores _ cfg s scope).trans (scopedDomain_ok hscope)
  obtain ⟨hshape, hchoose⟩ := (@freeAlias_iff cfg s linkAlias hlib hascii api.env
    { request with linkAlias := some linkAlias } _ _ hne rfl).2 ⟨hfree, rfl⟩
  obtain ⟨metaTags, hchecks⟩ := hvalid.checks
  obtain ⟨tagIds, htags⟩ := hvalid.tags
  have hbuild : ∃ row, buildRow (api.service s) { request with linkAlias := some linkAlias }
      (user.map (·.userId)) clientIp scope now s = .ok row ∧ row.id = api.env.newId ∧
        row.domain = scopeOf cfg.toDispatchConfig fqdn ∧
        row.linkAlias = canonicalizeEmojiAlias cfg.lib linkAlias := by
    refine ⟨_, bind_eq_ok.2 ⟨metaTags, hchecks, bind_eq_ok.2 ⟨_, ?_, bind_eq_ok.2 ⟨tagIds, htags,
      rfl⟩⟩⟩, rfl, htarget, rfl⟩
    rw [htarget]
    exact hchoose
  obtain ⟨row, hbuild, hid, hrowDomain, hrowAlias⟩ := hbuild
  obtain ⟨urls, hinsert⟩ : ∃ urls, s.urls.insertOne row = some urls := by
    refine exists_insertOne (fun old hold => hid ▸ hvalid.newId old hold) ?_
    have hkey := not_hasKey_of_available hfree.2
    rwa [scopeOf_scopeOf, ← hrowDomain, ← hrowAlias] at hkey
  have hcreate : ∃ created after, UrlService.create (api.service s) api.edge
      { request with linkAlias := some linkAlias } (user.map (·.userId)) clientIp scope now s =
        (.ok created, after) ∧ after.urls = urls := by
    simp only [UrlService.create, hbuild, UrlRepository.insert, hinsert]
    exact ⟨_, _, rfl, rfl⟩
  obtain ⟨created, after, hcreate, hurls⟩ := hcreate
  refine ⟨created, after, ?_, row, hrowDomain, hrowAlias, hurls ▸ hinsert⟩
  unfold shorten
  have hbody : ShortenBody.validate cfg.lib api.env.lib
      ⟨{ request with linkAlias := some linkAlias }, domain⟩ =
        .ok ⟨{ request with linkAlias := some linkAlias }, fqdn⟩ :=
    bind_eq_ok.2 ⟨(), hlength, bind_eq_ok.2 ⟨(), hshape, bind_eq_ok.2 ⟨fqdn, hdomain, rfl⟩⟩⟩
  have hfeatures : api.requireFeatures user { request with linkAlias := some linkAlias } = .ok () :=
    hvalid.features
  have hscope : api.scopedDomain "Authentication required to shorten on a custom domain" user fqdn =
      .ok scope := scopedDomain_message hscope
  simp only [hbody, hfeatures, hscope, hcreate, bind, Except.bind]

/-- One that goes through had a free alias. -/
theorem offersAlias_of_shorten (hlib : cfg.lib.Lawful) (hascii : cfg.lib.NonAscii)
    {request : CreateUrlRequest} {clientIp linkAlias : String} {now : Int}
    {domain : Option String} {created : UrlV2Doc × Option String} {after : Stores}
    (h : api.shorten user clientIp now ⟨{ request with linkAlias := some linkAlias }, domain⟩ s =
      (.ok created, after)) :
    ∃ fqdn, normDomain api.env.lib domain = .ok fqdn ∧ api.OffersAlias user s linkAlias fqdn := by
  unfold shorten at h
  dsimp only at h
  split at h
  · cases h
  · rename_i asked scope hchecked
    obtain ⟨body, hbody, hchecked⟩ := bind_eq_ok.1 hchecked
    obtain ⟨⟨⟩, -, hchecked⟩ := bind_eq_ok.1 hchecked
    obtain ⟨_, hscope, hchecked⟩ := bind_eq_ok.1 hchecked
    cases hchecked
    obtain ⟨⟨⟩, hlength, hbody⟩ := bind_eq_ok.1 hbody
    obtain ⟨⟨⟩, hshape, hbody⟩ := bind_eq_ok.1 hbody
    obtain ⟨fqdn, hfqdn, hbody⟩ := bind_eq_ok.1 hbody
    cases hbody
    have hne : linkAlias ≠ "" := by
      rintro rfl
      cases hlength
    have hbuild : ∃ row, buildRow (api.service s) { request with linkAlias := some linkAlias }
        (user.map (·.userId)) clientIp scope now s = .ok row := by
      obtain ⟨-, hfailed⟩ | ⟨row, _, hbuild, -, -⟩ := @create_cases (api.service s)
        { request with linkAlias := some linkAlias } (user.map (·.userId)) clientIp scope now s
        api.edge
      · split at h
        · cases h
        · rename_i hcreate
          exact absurd (congrArg Prod.fst hcreate) (hfailed _)
      · exact ⟨row, hbuild⟩
    obtain ⟨row, hbuild⟩ := hbuild
    obtain ⟨_, code, _, -, hchoose, -⟩ := buildRow_ok hbuild
    have htarget : targetDomain (api.service s).toUpdateEnv scope =
        scopeOf cfg.toDispatchConfig fqdn :=
      (targetDomain_onStores _ cfg s scope).trans (scopedDomain_ok hscope)
    rw [htarget] at hchoose
    have hfree := (@freeAlias_iff cfg s linkAlias hlib hascii api.env
      { request with linkAlias := some linkAlias } _ code hne rfl).1 ⟨hshape, hchoose⟩
    exact ⟨fqdn, hfqdn, hlength, ⟨scope, scopedDomain_message hscope⟩, hfree.1⟩

end ShortenApi

/-- The check reports an alias available exactly when a creation with it, otherwise in order, is
accepted and stores a link under its canonical form. -/
theorem alias_available_iff {cfg : AliasConfig} (hlib : cfg.lib.Lawful) (hascii : cfg.lib.NonAscii)
    (api : ShortenApi cfg) (user : Option CurrentUser) (request : CreateUrlRequest)
    (clientIp : String) (now : Int) (s : Stores) (hvalid : api.Accepts user request now s)
    (linkAlias : String) (domain : Option String) :
    (∃ response, api.checkAlias user ⟨linkAlias, domain⟩ s = .ok response ∧
        response.available = true) ↔
      ∃ fqdn created after, normDomain api.env.lib domain = .ok fqdn ∧
        api.shorten user clientIp now ⟨{ request with linkAlias := some linkAlias }, domain⟩ s =
          (.ok created, after) ∧
        ShortenApi.StoresLink s after (scopeOf cfg.toDispatchConfig fqdn)
          (canonicalizeEmojiAlias cfg.lib linkAlias) := by
  rw [ShortenApi.checkAlias_available_iff hlib]
  constructor
  · rintro ⟨fqdn, hdomain, hoffers⟩
    obtain ⟨created, after, hshorten, hstored⟩ :=
      ShortenApi.shorten_of_offersAlias hlib hascii hvalid hdomain hoffers
    exact ⟨fqdn, created, after, hdomain, hshorten, hstored⟩
  · rintro ⟨_, created, after, -, hshorten, -⟩
    exact ShortenApi.offersAlias_of_shorten hlib hascii hshorten

/-- The API of a site on which every feature and domain is open. -/
def openApi : ShortenApi plainAliases where
  env := openCreateEnv
  edge := plainEdge
  requireFlag _ _ := .ok ()
  assertOwnedAndActive _ _ := .ok ()

theorem accepts_scheduledRequest : openApi.Accepts (some ⟨7⟩) scheduledRequest 0 noLinks where
  features := rfl
  checks := ⟨none, by decide +kernel⟩
  tags := ⟨[], rfl⟩
  newId _ hrow := by cases hrow

theorem alias_available_iff_stars :
    openApi.Accepts (some ⟨7⟩) scheduledRequest 0 noLinks ∧
    ((∃ response, openApi.checkAlias (some ⟨7⟩) ⟨"⭐\uFE0F⭐", none⟩ noLinks = .ok response ∧
        response.available = true) ↔
      ∃ fqdn created after, normDomain openApi.env.lib none = .ok fqdn ∧
        openApi.shorten (some ⟨7⟩) "192.0.2.1" 0
            ⟨{ scheduledRequest with linkAlias := some "⭐\uFE0F⭐" }, none⟩ noLinks =
          (.ok created, after) ∧
        ShortenApi.StoresLink noLinks after (scopeOf plainAliases.toDispatchConfig fqdn)
          (canonicalizeEmojiAlias plainAliases.lib "⭐\uFE0F⭐")) :=
  ⟨accepts_scheduledRequest, alias_available_iff lawful_starEmojiLib nonAscii_starEmojiLib openApi
    (some ⟨7⟩) scheduledRequest "192.0.2.1" 0 noLinks accepts_scheduledRequest _ none⟩

end Spoo
