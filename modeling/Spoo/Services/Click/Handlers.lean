import Mathlib.Data.List.Infix
import Spoo.Services.UrlService.Service

/-!
# The v2 click handler (`services/click/handlers.py:68-240`) and bots (`services/click/bot_detection.py`)

A click is recorded by a worker, from the projection of the link the redirect was served from. That projection
may be older than the stored link. The click document itself is analytics and is left out.

The route and the edge Worker both read `data/preview_bots.json`. A header is Latin-1 text, in which ASCII
letters have no other case variants than each other.
-/

namespace Spoo

open Interleave

/-- What `V2ClickHandler.handle` reads of a `ClickContext`. -/
structure ClickContext where
  urlData : UrlCacheData
  shortCode : String
  userAgent : String
  clickedAt : Int

/-- The user-agent library the handler asks. -/
structure UserAgentLib where
  /-- `ua_parse` finds a browser and an operating system; `none` where it raises. -/
  isKnown : String → Option Bool
  /-- `is_bot_request`. -/
  isBotRequest : String → Bool

namespace V2ClickHandler

/-- The checks before a click is recorded; `false` skips a bot. -/
def checkClick (lib : UserAgentLib) (context : ClickContext) : Except AppError Bool :=
  if context.userAgent = "" then .error ⟨.validation, "Invalid User-Agent", none⟩
  else match lib.isKnown context.userAgent with
    | none => .error ⟨.validation,
        "An internal error occurred while processing the User-Agent", none⟩
    | some false => .error ⟨.validation, "Invalid User-Agent", none⟩
    | some true => .ok !(context.urlData.blockBots && lib.isBotRequest context.userAgent)

/-- The referrer of the click document (`handlers.py:127-132`). -/
def sanitizedReferrer (lib : UrlLib) (referrer : Option String) : Option String :=
  let isUnsafe (c : Char) : Bool := c = '$' || c.toNat ≤ 0x1F || (0x7F ≤ c.toNat && c.toNat ≤ 0x9F)
  let isKept (c : Char) : Bool := c.isAlphanum || c = '.' || c = '-'
  match referrer with
  | none | some "" => none
  | some referrer =>
    let domain := (registrableDomain lib referrer).toList.map fun c => if isUnsafe c then '_' else c
    some (String.ofList (domain.map fun c => if isKept c then c else '_'))

/-- The max-clicks expiry, against the limit of the projection. -/
def expireAtLimit (context : ClickContext) (urlId : ObjectId) (s : Stores) : Stores :=
  match context.urlData.maxClicks with
  | some maxClicks =>
    if maxClicks = 0 then s
    else
      let r := UrlRepository.expireIfMaxClicks s.urls urlId maxClicks
      if r.2 then
        UrlService.emitExpired urlId "max_clicks_reached" { s with
          urls := r.1
          cache := s.cache.invalidate context.shortCode context.urlData.domain }
      else { s with urls := r.1 }
  | none => s

/-- `V2ClickHandler.handle`. -/
def handle (lib : UserAgentLib) (context : ClickContext) (s : Stores) :
    Except AppError Unit × Stores :=
  match checkClick lib context, context.urlData.objectId with
  | .error e, _ => (.error e, s)
  | .ok true, some urlId =>
    let urls := UrlRepository.incrementClicks s.urls urlId context.clickedAt
    (.ok (), expireAtLimit context urlId { s with urls })
  | .ok _, _ => (.ok (), s)

/-! ## Its calls on the stores -/

/-- The local variable `expired` of `handle`. -/
structure ClickVars where
  expired : Bool := false

abbrev Call := Action ClickVars Stores

/-- `url_repo.increment_clicks`. -/
def countCall (context : ClickContext) (urlId : ObjectId) : Call := fun v s =>
  (v, { s with urls := UrlRepository.incrementClicks s.urls urlId context.clickedAt })

/-- `url_repo.expire_if_max_clicks`. -/
def expireCall (urlId : ObjectId) (maxClicks : Int) : Call := fun _ s =>
  let r := UrlRepository.expireIfMaxClicks s.urls urlId maxClicks
  ({ expired := r.2 }, { s with urls := r.1 })

/-- `url_cache.invalidate`, after a flip. -/
def invalidateCall (context : ClickContext) : Call := fun v s =>
  if v.expired then
    (v, { s with cache := s.cache.invalidate context.shortCode context.urlData.domain })
  else (v, s)

/-- `_emit_expired`, after a flip. -/
def emitCall (urlId : ObjectId) : Call := fun v s =>
  (v, if v.expired then UrlService.emitExpired urlId "max_clicks_reached" s else s)

/-- The calls of the max-clicks expiry. -/
def expiryCalls (context : ClickContext) (urlId : ObjectId) : List Call :=
  match context.urlData.maxClicks with
  | some maxClicks =>
    if maxClicks = 0 then []
    else [expireCall urlId maxClicks, invalidateCall context, emitCall urlId]
  | none => []

/-- The calls of `handle`: none where it raises or skips a bot. -/
def handleCalls (lib : UserAgentLib) (context : ClickContext) : List Call :=
  match checkClick lib context, context.urlData.objectId with
  | .ok true, some urlId => countCall context urlId :: expiryCalls context urlId
  | _, _ => []

theorem runActions_expiryCalls (context : ClickContext) (urlId : ObjectId) (s : Stores) :
    (runActions (expiryCalls context urlId) {} s).2 = expireAtLimit context urlId s := by
  unfold expiryCalls expireAtLimit
  cases context.urlData.maxClicks with
  | none => rfl
  | some maxClicks =>
    dsimp only
    split
    · rfl
    · simp only [runActions_cons, runActions_nil, expireCall, invalidateCall, emitCall]
      split <;> rfl

/-- The calls one after the other are `handle`. -/
theorem runActions_handleCalls (lib : UserAgentLib) (context : ClickContext) (s : Stores) :
    (runActions (handleCalls lib context) {} s).2 = (handle lib context s).2 := by
  unfold handleCalls handle
  cases checkClick lib context with
  | error e => rfl
  | ok recorded =>
    cases context.urlData.objectId with
    | none => cases recorded <;> rfl
    | some urlId =>
      cases recorded with
      | false => rfl
      | true => exact runActions_expiryCalls context urlId _

end V2ClickHandler

/-! ## Bots and preview crawlers -/

/-- `preview_bots.json`. -/
structure PreviewBots where
  tokens : List String
  tokensCs : List String
  cfCategories : List String

/-- The allowlist, the same for the route and for the Worker. -/
def previewBots : PreviewBots where
  tokens := [
    "facebookexternalhit", "Meta-ExternalHit", "Facebot", "facebookcatalog", "Twitterbot",
    "WhatsApp/", "TelegramBot", "Discordbot", "Slackbot", "Slack-ImgProxy", "LinkedInBot",
    "SkypeUriPreview", "Mastodon/", "Pinterestbot", "Pinterest/0.2", "redditbot", "vkShare",
    "Snap URL Preview Service", "SnapURLPreview", "kakaotalk-scrap", "line-poker", "Iframely",
    "Embedly", "Synapse (bot", "Google-PageRenderer", "GoogleImageProxy", "GoogleMessages",
    "ViberUrlDownloader", "ViberBot", "OdklBot", "XING-contenttabreceiver", "Valve/Steam",
    "SteamChat", "GroupMeBot", "KeybaseBot", "ZoomBot", "Nextcloud-Server-Crawler",
    "Nextcloud Server Crawler", "Yahoo Link Preview", "Yahoo:LinkExpander:Slingstone",
    "MicrosoftPreview", "Microsoft Outlook", "Lemmy/", "Pleroma ", "Akkoma ", "SummalyBot",
    "PeerTube/", "Pixelfed", "Friendica", "Mbin/", "WordPress/", "Ghost/5.0",
    "Mediumbot-MetaTagFetcher", "OpenGraph.io/", "OpenGraphXYZBot", "MetadataScraper",
    "LinkPreview/", "BufferLinkPreviewBot", "FlipboardProxy", "FastmailUA", "hey.com/imageproxy",
    "Shortwave Image Fetcher", "Orlo-LinkPreview", "LoomlyBot", "ArenaUnfurlBot", "Citoid",
    "Mail.RU_Bot"]
  tokensCs := ["Bluesky", "Tumblr/", "Notion/"]
  cfCategories := []

/-- `token in text`. -/
def containsText (text token : String) : Bool := decide (token.toList <:+: text.toList)

/-- `_preview_bots_res`, searched in a user agent: the tokens of the first list in any case. -/
def matchesPreviewBot (bots : PreviewBots) (userAgent : String) : Bool :=
  (bots.tokens.any fun token => containsText userAgent.toLower token.toLower) ||
    bots.tokensCs.any (containsText userAgent)

/-- `wants_preview` (`bot_detection.py:67-82`). -/
def wantsPreview (method userAgent : String) (botParam : Bool) : Bool :=
  if botParam || method = "HEAD" then true
  else if userAgent = "" then false
  else matchesPreviewBot previewBots userAgent

/-- `should_block_bot` (`bot_detection.py:135-156`). -/
def shouldBlockBot (agents : UserAgentLib) (method userAgent : String) (data : UrlCacheData) :
    Bool :=
  !(method = "HEAD" || method = "OPTIONS") && userAgent ≠ "" && data.blockBots &&
    data.schemaVersion ≠ "v2" && agents.isBotRequest userAgent

/-- `LegacyClickHandler.handle` raises a `ForbiddenError` (`services/click/handlers.py:252-318`);
the v2 handler never does. -/
def clickForbidden (agents : UserAgentLib) (userAgent : String) (data : UrlCacheData) : Bool :=
  data.schemaVersion ≠ "v2" && userAgent ≠ "" && agents.isKnown userAgent = some true &&
    agents.isBotRequest userAgent && data.blockBots

example : wantsPreview "GET" "Mozilla/5.0 (compatible; discordbot/2.0)" false = true := by decide +kernel

end Spoo
