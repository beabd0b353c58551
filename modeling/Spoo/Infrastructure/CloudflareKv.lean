import Spoo.Lib.PyList
import Spoo.Lib.Quote
import Spoo.Schemas.Webhook

/-!
# The Workers KV client (`infrastructure/cloudflare_kv.py`, `infrastructure/cloudflare_session.py`)

Every method answers with a flag. The API is a parameter: what it answers may depend on all calls
before, and a run keeps a log of its calls with the reply that the session has made of the attempts.
-/

namespace Spoo

namespace CloudflareKv

/-! ## The session -/

/-- `httpx.Response`, with what `json()` reads: `none` is a `ValueError`. -/
structure KvResponse where
  statusCode : Nat
  json : Option Json

/-- `is_success`. -/
def KvResponse.isSuccess (response : KvResponse) : Bool :=
  decide (200 ≤ response.statusCode) && decide (response.statusCode ≤ 299)

/-- What comes of one attempt, or of a whole call. -/
inductive KvReply where
  | response (response : KvResponse)
  /-- `httpx.HTTPError`. -/
  | httpError
  | raised (name : String)

/-- The retry loop of `CloudflareSession.request`: the attempts that are left, the number of the next,
the last response, and whether a transport error was seen. -/
def sessionLoop (attempts : Nat → KvReply) : Nat → Nat → Option KvResponse → Bool → KvReply
  | 0, _, some last, _ => .response last
  | 0, _, none, true => .httpError
  | 0, _, none, false => .raised "AssertionError"
  | left + 1, attempt, last, failed =>
    match attempts attempt with
    | .httpError => sessionLoop attempts left (attempt + 1) last true
    | .raised name => .raised name
    | .response response =>
      if 500 ≤ response.statusCode ∨ response.statusCode = 429 then
        sessionLoop attempts left (attempt + 1) (some response) failed
      else .response response

/-- `CloudflareSession.request` (`cloudflare_session.py:46-111`). -/
def sessionRequest (maxRetries : Nat) (attempts : Nat → KvReply) : KvReply :=
  sessionLoop attempts maxRetries 0 none false

/-! ## Calls -/

/-- A value to be written under a key. -/
structure KvEntry where
  key : String
  value : String
  expirationTtl : Option Int := none
  deriving DecidableEq, Repr

/-- What a request carries. -/
inductive KvBody where
  | entries (entries : List KvEntry)
  | keys (keys : List String)
  | content (value : String) (expirationTtl : Option Int)
  | empty
  deriving DecidableEq, Repr

/-- A request to the namespace. -/
structure KvRequest where
  method : String
  path : String
  body : KvBody
  deriving DecidableEq, Repr

/-- A call of the session and its reply. -/
structure KvExchange where
  request : KvRequest
  reply : KvReply

/-- `CloudflareKVClient`. -/
structure KvClient where
  apiToken : Option String
  accountId : Option String
  namespaceId : Option String
  apiBase : Option String := none
  maxRetries : Nat := 3
  deriving DecidableEq, Repr

/-- The API: what each attempt of a request comes to, after the calls before it. -/
abbrev KvApi := List KvExchange → KvRequest → Nat → KvReply

/-- A run adds to the log, and returns or raises. -/
abbrev KvRun (α : Type) := List KvExchange → List KvExchange × Except String α

/-- `bool(value)` of a setting. -/
def isSet (setting : Option String) : Bool := (setting.filter (· ≠ "")).isSome

/-- `_BULK_MAX_ITEMS`. -/
def bulkMaxItems : Nat := 10000

/-- `value.get(name)`: a value that is no dictionary has no such method. -/
def jsonGet (name : String) : Json → Except String Json
  | .obj fields => .ok ((fields.lookup name).getD .null)
  | _ => .error "AttributeError"

/-- `value or default`. -/
def jsonOr (value default : Json) : Json := if value.truthy then value else default

/-- `_grade_response`. -/
def gradeResponse (response : KvResponse) (okStatuses : List Nat) : Bool :=
  response.isSuccess || decide (response.statusCode ∈ okStatuses)

/-- `(response.json().get("result") or {}).get("unsuccessful_keys") or []`. -/
def unsuccessfulKeys (body : Json) : Except String Json := do
  let result ← jsonGet "result" body
  let keys ← jsonGet "unsuccessful_keys" (jsonOr result (.obj []))
  .ok (jsonOr keys (.arr []))

/-- The end of `_bulk_request`: the keys that failed are counted and shown before the flag is returned. -/
def gradeKeys (unsuccessful : Json) : Except String (Option Bool) :=
  if unsuccessful.truthy then
    match unsuccessful with
    | .arr _ => .ok (some false)
    | .str _ => .ok (some false)
    | _ => .error "TypeError"
  else .ok (some true)

/-- What `_bulk_request` makes of a response. -/
def gradeBulk (response : KvResponse) : Except String (Option Bool) :=
  if response.statusCode = 404 then .ok none
  else if gradeResponse response [] then
    match response.json with
    -- A body that is no JSON: the status is trusted.
    | none => .ok (some true)
    | some body => (unsuccessfulKeys body).bind gradeKeys
  else .ok (some false)

/-- What `_bulk_request` makes of a reply. -/
def bulkVerdict : KvReply → Except String (Option Bool)
  | .httpError => .ok (some false)
  | .raised name => .error name
  | .response response => gradeBulk response

/-- What `_request` makes of a reply. -/
def singleVerdict (okStatuses : List Nat) : KvReply → Except String Bool
  | .httpError => .ok false
  | .raised name => .error name
  | .response response => .ok (gradeResponse response okStatuses)

namespace KvClient

variable (client : KvClient) (api : KvApi)

/-- `is_configured`. -/
def isConfigured : Bool :=
  isSet client.apiToken && isSet client.namespaceId && (isSet client.accountId || isSet client.apiBase)

/-- `/storage/kv/namespaces/{namespace_id}/{subpath}`. -/
def bulkPath (subpath : String) : String :=
  "/storage/kv/namespaces/" ++ client.namespaceId.getD "None" ++ "/" ++ subpath

/-- `/storage/kv/namespaces/{namespace_id}/values/{quote(key, safe='')}`. -/
def valuePath (key : String) : String :=
  client.bulkPath ("values/" ++ String.ofList (PercentEncoding.quote [] key.toList))

/-- One call of the session. -/
def send (request : KvRequest) (log : List KvExchange) : KvExchange :=
  ⟨request, sessionRequest client.maxRetries (api log request)⟩

/-- `_bulk_request` (`cloudflare_kv.py:157-209`). -/
def bulkRequest (method subpath : String) (body : KvBody) : KvRun (Option Bool) := fun log =>
  if client.isConfigured then
    let exchange := client.send api ⟨method, client.bulkPath subpath, body⟩ log
    (log ++ [exchange], bulkVerdict exchange.reply)
  else (log, .ok (some false))

/-- `_request` (`cloudflare_kv.py:211-246`). -/
def request (method key : String) (body : KvBody) (okStatuses : List Nat) : KvRun Bool := fun log =>
  if client.isConfigured then
    let exchange := client.send api ⟨method, client.valuePath key, body⟩ log
    (log ++ [exchange], singleVerdict okStatuses exchange.reply)
  else (log, .ok false)

/-- `put`. -/
def put (entry : KvEntry) : KvRun Bool :=
  client.request api "PUT" entry.key (.content entry.value entry.expirationTtl) []

/-- `delete`: an entry that is gone already counts as deleted. -/
def delete (key : String) : KvRun Bool := client.request api "DELETE" key .empty [404]

end KvClient

section

variable {α : Type} (call : List α → KvRun (Option Bool)) (one : α → KvRun Bool)

/-- The loop of `_put_one_by_one` and of `_delete_one_by_one`. -/
def oneByOne : List α → Bool → KvRun Bool
  | [], ok, log => (log, .ok ok)
  | item :: items, ok, log =>
    match one item log with
    | (log, .error e) => (log, .error e)
    | (log, .ok done) => oneByOne items (done && ok) log

/-- The loop over the chunks: where the bulk route is absent, all items are handled one by one. -/
def byChunks (items : List α) : List (List α) → Bool → KvRun Bool
  | [], ok, log => (log, .ok ok)
  | chunk :: chunks, ok, log =>
    match call chunk log with
    | (log, .error e) => (log, .error e)
    | (log, .ok none) => oneByOne one items true log
    | (log, .ok (some result)) => byChunks items chunks (result && ok) log

/-- A bulk operation. -/
def bulk (items : List α) : KvRun Bool := fun log =>
  if items = [] then (log, .ok true)
  else byChunks call one items (PyList.chunks bulkMaxItems items) true log

end

namespace KvClient

variable (client : KvClient) (api : KvApi)

/-- `bulk_put` (`cloudflare_kv.py:96-122`), with the pairs and `expiration_ttl` as entries. -/
def bulkPut (pairs : List (String × String)) (expirationTtl : Option Int := none) : KvRun Bool :=
  bulk (fun chunk => client.bulkRequest api "PUT" "bulk" (.entries chunk)) (client.put api)
    (pairs.map fun pair => ⟨pair.1, pair.2, expirationTtl⟩)

/-- `bulk_delete` (`cloudflare_kv.py:124-141`). -/
def bulkDelete (keys : List String) : KvRun Bool :=
  bulk (fun chunk => client.bulkRequest api "POST" "bulk/delete" (.keys chunk)) (client.delete api) keys

end KvClient

end CloudflareKv

end Spoo
