import Spoo.Services.UrlService.Alias

/-!
# Legacy creation routes (`routes/legacy/url_shortener.py`)

`POST /` makes a v1 link and `/emoji` an emoji one. The two differ in how they choose the code and
in when they ask the gate; what they store is the same.
-/

namespace Spoo

/-- A request as the two routes read it. -/
structure LegacyRequest where
  form : PyDict String String := PyDict.empty
  query : PyDict String String := PyDict.empty
  /-- `Accept: application/json`. -/
  wantsJson : Bool := false
  /-- `str(request.base_url)`. -/
  hostUrl : String
  /-- `request.url.hostname`. -/
  hostname : String

/-- `form.get(key) or request.query_params.get(key) or None`. -/
def LegacyRequest.field (request : LegacyRequest) (key : String) : Option String :=
  (orNone (request.form.get? key)).or (orNone (request.query.get? key))

/-- What the routes answer. -/
inductive LegacyResponse where
  | json (status : Nat) (body : List (String × String))
  | template (status : Nat) (name : String) (context : List (String × String))
  | redirect (location : String)
  deriving DecidableEq, Repr

/-- What the routes ask of other components. Codes are drawn at random. -/
structure LegacyEnv (cfg : AliasConfig) where
  lib : UrlLib
  /-- `url_policy.check`. -/
  checkPolicy : String → Option PolicyRejection
  urlPasswordMinLength : Nat
  /-- `\d` of `re`: a decimal digit of Unicode. -/
  isDecimal : Char → Bool
  readers : LegacyReaders
  /-- The draws of `generate_short_code()`. -/
  shortCode : Nat → ShortCode 6
  /-- The draws of `generate_emoji_alias()`. -/
  emojiCode : Nat → EmojiCode cfg.lib defaultGenerateMaxVersion 3

/-- `validate_url_password` (`validators.py:71-92`). -/
def validateUrlPassword (isDecimal : Char → Bool) (password : String) (minLength : Nat) : Bool :=
  let isSpecial := fun c : Char => c = '@' || c = '.'
  decide (minLength ≤ password.length) && password.toList.any Char.isAlpha &&
    password.toList.any isDecimal && password.toList.any isSpecial &&
    !(password.toList.zip password.toList.tail).any fun pair => isSpecial pair.1 && isSpecial pair.2

/-- `is_positive_integer` (`routes/legacy/helpers.py:12-19`). -/
def isPositiveInteger (readers : LegacyReaders) (value : String) : Bool :=
  (readers.intOfStr value).any (0 ≤ ·)

namespace LegacyShortener

variable {cfg : AliasConfig} (env : LegacyEnv cfg) (request : LegacyRequest)

/-- The gate of the two routes. They name a blocked URL differently. -/
def checkUrl (blockedError url : String) : Except LegacyResponse Unit :=
  match env.checkPolicy url with
  | none => .ok ()
  | some rejection =>
    if rejection.code = "invalid_url" then
      .error (.json 400 [("UrlError", "Invalid URL, URL must have a valid protocol and must follow" ++
        " rfc_1034 & rfc_2728 patterns")])
    else .error (.json 403 [(blockedError, rejection.publicMessage)])

/-- The password to store. -/
def checkPassword : Except LegacyResponse (Option String) :=
  match request.field "password" with
  | none => .ok none
  | some password =>
    if validateUrlPassword env.isDecimal password env.urlPasswordMinLength then .ok (some password)
    else .error (.json 400 [("PasswordError",
      "Invalid password, password must be at least " ++ toString env.urlPasswordMinLength ++
        " characters long, must contain a letter and a number and a special character" ++
        " either '@' or '.' and cannot be consecutive")])

/-- The `max-clicks` to store: a string. -/
def checkMaxClicks : Except LegacyResponse LegacyValue :=
  match request.field "max-clicks" with
  | none => .ok .missing
  | some maxClicks =>
    if isPositiveInteger env.readers maxClicks then
      .ok (.str (toString ((env.readers.intOfStr maxClicks).getD 0).natAbs))
    else .error (.json 400 [("MaxClicksError", "max-clicks must be an positive integer")])

/-- The document the two routes store under a code. -/
def newLink (url shortCode : String) : Except LegacyResponse LegacyUrlRow := do
  let password ← checkPassword env request
  let maxClicks ← checkMaxClicks env request
  .ok {
    code := shortCode
    url
    password
    blockBots := (request.field "block-bots").map fun _ => true
    maxClicks
    totalClicks := .int 0
    dest := (parseDestination env.lib url).map fun parts => {
      scheme := parts.scheme
      host := parts.host
      subdomain := parts.subdomain
      registrableDomain := parts.registrableDomain } }

/-- The answer to a creation. -/
def created (row : LegacyUrlRow) : LegacyResponse :=
  if request.wantsJson then
    .json 200 [("short_url", request.hostUrl ++ row.code), ("domain", request.hostname),
      ("original_url", row.url)]
  else .redirect ("/result/" ++ row.code)

/-! ## v1 links -/

/-- An error `POST /` answers in the form the client asked for. -/
def refuse (body context : List (String × String)) : LegacyResponse :=
  if request.wantsJson then .json 400 body
  else .template 400 "index.html" (context ++ [("host_url", request.hostUrl)])

/-- The code of a v1 link: custom, cut to 16 characters, or the first free one of 20 draws
(`url_shortener.py:140-193`). -/
def chooseShortCode (url : String) (s : Stores) : Except LegacyResponse String :=
  match request.field "alias" with
  | some requested =>
    if !validateAlias requested then
      .error (refuse request [("AliasError", "Invalid Alias"), ("alias", requested)]
        [("error", "Invalid Alias"), ("url", url)])
    else
      let linkAlias := String.ofList (requested.toList.take 16)
      if !UrlService.checkAliasAvailable cfg.toDispatchConfig s linkAlias none then
        .error (refuse request [("AliasError", "Alias already exists"), ("alias", linkAlias)]
          [("error", "Alias " ++ linkAlias ++ " already exists"), ("url", url)])
      else .ok linkAlias
  | none =>
    match ((List.range 20).map fun n => (env.shortCode n).code).find? fun candidate =>
        !LegacyUrlRepository.checkExists s.legacy candidate &&
          !UrlRepository.checkAliasExists s.urls candidate cfg.systemDefaultDomain with
    | some candidate => .ok candidate
    | none => .error (.json 500 [("UrlError", "Could not generate unique alias")])

/-- What `POST /` stores, or why not. -/
def buildShorten (s : Stores) : Except LegacyResponse LegacyUrlRow :=
  match request.field "url" with
  | none =>
    .error (refuse request [("UrlError", "URL is required")] [("error", "URL is required")])
  | some url => do
    checkUrl env "BlockedUrlError" url
    let shortCode ← chooseShortCode env request url s
    newLink env request url shortCode

/-- `POST /` (`url_shortener.py:83-258`). -/
def shortenUrl (s : Stores) : Except Raised LegacyResponse × Stores :=
  match buildShorten env request s with
  | .error response => (.ok response, s)
  | .ok row =>
    match LegacyUrlRepository.insert s.legacy row with
    | none => (.error .duplicateKey, s)
    | some legacy => (.ok (created request row), { s with legacy })

/-! ## Emoji links -/

/-- The code of an emoji link: custom and canonical, or the first free one of 20 draws
(`url_shortener.py:301-327`). -/
def chooseEmojies (s : Stores) : Except LegacyResponse String :=
  match request.field "emojies" with
  | some requested =>
    let emojies := canonicalizeEmojiAlias cfg.lib requested
    if checkEmojiAlias cfg.lib emojies cfg.maxEmojiAliasLength cfg.emojiAcceptMaxVersion ≠ .ok then
      .error (.json 400 [("EmojiError", "Invalid emoji")])
    else if !UrlService.checkAliasAvailable cfg.toDispatchConfig s emojies none then
      .error (.json 400 [("EmojiError", "Emoji already exists")])
    else .ok emojies
  | none =>
    match ((List.range 20).map fun n => (env.emojiCode n).code).find? fun candidate =>
        UrlService.checkAliasAvailable cfg.toDispatchConfig s candidate none with
    | some candidate => .ok candidate
    | none => .error (.json 500 [("EmojiError", "Could not generate unique emoji alias")])

/-- What `/emoji` stores, or why not. The gate comes after the code. -/
def buildEmoji (s : Stores) : Except LegacyResponse LegacyUrlRow :=
  match request.field "url" with
  | none => .error (.json 400 [("UrlError", "URL is required")])
  | some url => do
    let emojies ← chooseEmojies env request s
    checkUrl env "UrlError" url
    newLink env request url emojies

/-- `/emoji` (`url_shortener.py:264-407`). -/
def emoji (s : Stores) : Except Raised LegacyResponse × Stores :=
  match buildEmoji env request s with
  | .error response => (.ok response, s)
  | .ok row =>
    match LegacyUrlRepository.insert s.emoji row with
    | none => (.error .duplicateKey, s)
    | some emoji => (.ok (created request row), { s with emoji })

end LegacyShortener

end Spoo
