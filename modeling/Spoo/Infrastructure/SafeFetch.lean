import Spoo.Lib.PyList
import Spoo.Lib.Search
import Spoo.Schemas.Webhook

/-!
# Guarded fetches (`infrastructure/safe_fetch.py`)

`httpx`, the parser of `ipaddress` and the network are parameters. Every lookup and every connection is
recorded, and what the network answers may depend on the whole record.
-/

namespace Spoo

/-! ## Addresses -/

/-- `IPv4Address` and `IPv6Address`. -/
inductive IpAddress where
  | v4 (value : BitVec 32)
  | v6 (value : BitVec 128)
  deriving DecidableEq, Repr

/-- `addr in network`, for a network of the first `length` bits. -/
def inNetwork {width : Nat} (value network : BitVec width) (length : Nat) : Bool :=
  value >>> (width - length) = network >>> (width - length)

/-- `0.0.0.0/8`, and the private networks of `ipaddress` after it. -/
def privateV4 : List (BitVec 32 × Nat) :=
  [(0x00000000, 8), (0x0A000000, 8), (0x7F000000, 8), (0xA9FE0000, 16), (0xAC100000, 12), (0xC0000000, 24),
    (0xC00000AA, 31), (0xC0000200, 24), (0xC0A80000, 16), (0xC6120000, 15), (0xC6336400, 24),
    (0xCB007100, 24), (0xF0000000, 4), (0xFFFFFFFF, 32)]

/-- `192.0.0.9` and `192.0.0.10`. -/
def publicExceptionsV4 : List (BitVec 32 × Nat) := [(0xC0000009, 32), (0xC000000A, 32)]

/-- `::1/128`, and the private networks of `ipaddress` after it. -/
def privateV6 : List (BitVec 128 × Nat) :=
  [(0x00000000000000000000000000000001, 128), (0x00000000000000000000000000000000, 128),
    (0x00000000000000000000FFFF00000000, 96), (0x0064FF9B000100000000000000000000, 48),
    (0x01000000000000000000000000000000, 64), (0x20010000000000000000000000000000, 23),
    (0x20010DB8000000000000000000000000, 32), (0x20020000000000000000000000000000, 16),
    (0x3FFF0000000000000000000000000000, 20), (0xFC000000000000000000000000000000, 7),
    (0xFE800000000000000000000000000000, 10)]

/-- `2001:1::1`, and the exceptions after it. -/
def publicExceptionsV6 : List (BitVec 128 × Nat) :=
  [(0x20010001000000000000000000000001, 128), (0x20010001000000000000000000000002, 128),
    (0x20010003000000000000000000000000, 32), (0x20010004011200000000000000000000, 48),
    (0x20010020000000000000000000000000, 28), (0x20010030000000000000000000000000, 28)]

/-- `is_private`. -/
def isPrivateIn {width : Nat} (networks exceptions : List (BitVec width × Nat)) (value : BitVec width) :
    Bool :=
  networks.any (fun network => inNetwork value network.1 network.2) &&
    exceptions.all fun network => !inNetwork value network.1 network.2

/-- `is_global` of an address that is not mapped. -/
def IpAddress.isGlobal : IpAddress → Bool
  -- 100.64.0.0/10 is neither private nor global.
  | .v4 value => !inNetwork value 0x64400000 10 && !isPrivateIn privateV4 publicExceptionsV4 value
  | .v6 value => !isPrivateIn privateV6 publicExceptionsV6 value

def IpAddress.isMulticast : IpAddress → Bool
  | .v4 value => inNetwork value 0xE0000000 4
  | .v6 value => inNetwork value 0xFF000000000000000000000000000000 8

/-- `ipv4_mapped`. -/
def ipv4Mapped (value : BitVec 128) : Option IpAddress :=
  if value >>> 32 = 0xFFFF then some (.v4 (value.setWidth 32)) else none

/-- The rest of `_is_public`, on an address. -/
def IpAddress.isPublic : IpAddress → Bool
  | .v4 value => (IpAddress.v4 value).isGlobal && !(IpAddress.v4 value).isMulticast
  | .v6 value =>
    match ipv4Mapped value with
    | some mapped => mapped.isGlobal && !mapped.isMulticast
    | none =>
      -- `_NAT64_PREFIX`.
      if inNetwork value 0x0064FF9B000000000000000000000000 96 then false
      else (IpAddress.v6 value).isGlobal && !(IpAddress.v6 value).isMulticast

/-! ## Requests -/

/-- `httpx.URL`: what the fetch reads of it. -/
structure HttpxUrl where
  scheme : String
  host : String
  /-- The port, the path, the query and the rest. -/
  rest : String
  deriving DecidableEq, Repr

/-- A `float`. -/
inductive PyFloat where
  | finite (value : ℚ)
  | inf
  | negInf
  | nan

/-- What comes from packages. -/
structure NetLib where
  /-- `httpx.URL(url)`: an error is an `InvalidURL`. -/
  parseUrl : String → Except String HttpxUrl
  /-- `str(parsed.join(location))`: an error is an `InvalidURL`. -/
  join : HttpxUrl → String → Except String String
  /-- `str(parsed)`. -/
  urlText : HttpxUrl → String
  /-- `ipaddress.ip_address(text)`: `none` is a `ValueError`. -/
  ipAddress : String → Option IpAddress
  /-- `value.split(";")[0].strip().lower()`. -/
  mediaType : String → String
  /-- `repr(text)`. -/
  repr : String → String
  /-- `data.decode("utf-8", errors="replace")`. -/
  decodeUtf8 : List UInt8 → String
  /-- `float(text)`: `none` is a `ValueError`. -/
  float : String → Option PyFloat

inductive RecordType where
  | a
  | aaaa
  deriving DecidableEq, Repr

/-- How a lookup ends. -/
inductive DnsAnswer where
  | addresses (texts : List String)
  | noAnswer
  | nxdomain
  | timeout
  | failure (name : String)
  deriving DecidableEq, Repr

structure FetchRequest where
  method : String
  /-- The URL whose host is connected to. -/
  url : HttpxUrl
  sniHostname : String
  headers : List (String × String)
  content : String
  deriving DecidableEq, Repr

/-- How the read of a body ends. -/
inductive StreamEnd where
  | complete
  | deadline
  | broken (name message : String)
  deriving DecidableEq, Repr

structure FetchResponse where
  statusCode : Nat
  location : Option String
  contentType : Option String
  contentLength : Option String
  retryAfter : Option String
  chunks : List (List UInt8)
  ending : StreamEnd

/-- What is done on the network. -/
inductive NetEvent where
  | lookup (host : String) (rdtype : RecordType) (answer : DnsAnswer)
  | connect (request : FetchRequest)
  deriving DecidableEq, Repr

/-- `httpx.TimeoutException` and `httpx.TransportError`. -/
structure TransportError where
  name : String
  message : String

/-- What the network answers after what has been done. -/
structure World where
  dns : List NetEvent → String → RecordType → DnsAnswer
  /-- `client.send`. -/
  send : List NetEvent → FetchRequest → Except TransportError FetchResponse

/-- What is raised. -/
inductive FetchError where
  | hard (message : String)
  | denied (message : String)
  | transient (message : String)
  /-- An exception of a package that is not caught. -/
  | uncaught (name : String)
  deriving DecidableEq, Repr

variable (lib : NetLib) (world : World)

/-- `_is_public` (`safe_fetch.py:65-78`). -/
def isPublic (ip : String) : Except FetchError Bool :=
  match lib.ipAddress ip with
  | none => .error (.uncaught "ValueError")
  | some addr => .ok addr.isPublic

/-- `all(_is_public(ip) for ip in ips)`. -/
def allPublic : List String → Except FetchError Bool
  | [] => .ok true
  | ip :: ips => do if ← isPublic lib ip then allPublic ips else .ok false

/-- The loop over the types of records (`safe_fetch.py:95-104`). -/
def lookupAll (host : String) : List RecordType → List String → List NetEvent →
    List NetEvent × Except FetchError (List String)
  | [], ips, trace => (trace, .ok ips)
  | rdtype :: rdtypes, ips, trace =>
    let answer := world.dns trace host rdtype
    let trace := trace ++ [.lookup host rdtype answer]
    match answer with
    | .addresses texts => lookupAll host rdtypes (ips ++ texts) trace
    | .noAnswer => lookupAll host rdtypes ips trace
    | .nxdomain => lookupAll host rdtypes ips trace
    | .timeout => (trace, .error (.transient "DNS timeout"))
    | .failure name => (trace, .error (.hard ("DNS failure: " ++ name)))

/-- What is made of the addresses (`safe_fetch.py:105-110`). -/
def pickAddress (ips : List String) : Except FetchError String :=
  match ips with
  | [] => .error (.hard "host does not resolve")
  | ip :: _ => do
    if ← allPublic lib ips then .ok ip else .error (.hard "host resolves to a non-public address")

/-- `resolve_public_ip` (`safe_fetch.py:81-110`). -/
def resolvePublicIp (host : String) (trace : List NetEvent) : List NetEvent × Except FetchError String :=
  match lib.ipAddress host with
  | some addr => (trace, if addr.isPublic then .ok host else .error (.hard "address is not public"))
  | none =>
    let (trace, ips) := lookupAll world host [.a, .aaaa] [] trace
    (trace, ips.bind (pickAddress lib))

/-- `_bracket`. -/
def bracket (ip : String) : String := if ':' ∈ ip.toList then "[" ++ ip ++ "]" else ip

/-! ## Bodies -/

/-- The loop of `_read_body`, from what has been read and searched on. -/
def readBodyFrom (maxBytes : Nat) (truncateOverCap : Bool) (stopAfter : Option (List UInt8))
    (buf : List UInt8) (searched : Nat) : List (List UInt8) → Except FetchError (List UInt8)
  | [] => .ok buf
  | chunk :: chunks =>
    let buf := buf ++ chunk
    let found := stopAfter.bind fun marker =>
      (Search.findFrom marker (searched - marker.length) buf).map (· + marker.length)
    match found with
    | some stop => .ok (buf.take stop)
    | none =>
      if maxBytes < buf.length then
        if truncateOverCap then .ok (buf.take maxBytes) else .error (.hard "body over cap")
      else readBodyFrom maxBytes truncateOverCap stopAfter buf buf.length chunks

/-- `_read_body` (`safe_fetch.py:122-142`). -/
def readBody (chunks : List (List UInt8)) (maxBytes : Nat) (truncateOverCap : Bool)
    (stopAfter : Option (List UInt8)) : Except FetchError (List UInt8) :=
  readBodyFrom maxBytes truncateOverCap stopAfter [] 0 chunks

/-- `_REDIRECT_STATUSES`. -/
def redirectStatuses : List Nat := [301, 302, 303, 307, 308]

/-- The arguments of `fetch_public`. -/
structure FetchOptions where
  acceptContent : List String
  rejectContent : List String := []
  maxBytes : Nat := 1048576
  maxRedirects : Nat := 3
  truncateOverCap : Bool := false
  stopAfter : Option (List UInt8) := none
  userAgent : String := "spoo.me-og-validator/1.0 (+https://spoo.me)"

/-- `FetchedBody`. -/
structure FetchedBody where
  data : List UInt8
  contentType : String
  finalUrl : String

/-- How one turn of the loop of `fetch_public` ends. -/
inductive HopEnd where
  | redirect (url : String)
  | fetched (body : FetchedBody)

/-- `declared.isdigit() and int(declared) > max_bytes`. -/
def declaredOver (maxBytes : Nat) (declared : String) : Except FetchError Bool :=
  if Py.isdigit declared then
    match Py.int? declared with
    | some size => .ok (decide (maxBytes < size))
    | none => .error (.uncaught "ValueError")
  else .ok false

/-- What is made of a response (`safe_fetch.py:194-236`). -/
def readResponse (options : FetchOptions) (parsed : HttpxUrl) (resp : FetchResponse) :
    Except FetchError HopEnd := do
  if resp.statusCode ∈ redirectStatuses then
    match resp.location with
    | none => .error (.hard "redirect without location")
    | some "" => .error (.hard "redirect without location")
    | some location =>
      match lib.join parsed location with
      | .error _ => .error (.uncaught "InvalidURL")
      | .ok url => return .redirect url
  if 500 ≤ resp.statusCode ∨ resp.statusCode = 429 then
    .error (.transient s!"status {resp.statusCode}")
  if resp.statusCode = 401 ∨ resp.statusCode = 403 then .error (.denied s!"status {resp.statusCode}")
  if resp.statusCode ≠ 200 then .error (.hard s!"status {resp.statusCode}")
  let ctype := lib.mediaType (resp.contentType.getD "")
  unless options.acceptContent.any (·.toList.isPrefixOf ctype.toList) do
    .error (.hard ("content-type " ++ lib.repr ctype))
  if options.rejectContent.any fun marker => (Search.find marker.toList ctype.toList).isSome then
    .error (.hard ("content-type " ++ lib.repr ctype))
  if (← declaredOver options.maxBytes (resp.contentLength.getD "")) && !options.truncateOverCap then
    .error (.hard "content-length over cap")
  match resp.ending with
  | .deadline => .error (.transient "read deadline exceeded")
  | .broken name _ => .error (.uncaught name)
  | .complete =>
    let data ← readBody resp.chunks options.maxBytes options.truncateOverCap options.stopAfter
    return .fetched ⟨data, ctype, lib.urlText parsed⟩

/-- One turn of the loop of `fetch_public`. -/
def fetchHop (options : FetchOptions) (url : String) (trace : List NetEvent) :
    List NetEvent × Except FetchError HopEnd :=
  match lib.parseUrl url with
  | .error _ => (trace, .error (.uncaught "InvalidURL"))
  | .ok parsed =>
    if parsed.scheme ≠ "https" then (trace, .error (.hard "non-https URL"))
    else
      match resolvePublicIp lib world parsed.host trace with
      | (trace, .error e) => (trace, .error e)
      | (trace, .ok ip) =>
        let request : FetchRequest := {
          method := "GET"
          url := { parsed with host := bracket ip }
          sniHostname := parsed.host
          headers := [("Host", parsed.host), ("User-Agent", options.userAgent), ("Accept-Encoding", "identity")]
          content := "" }
        let reply := world.send trace request
        let trace := trace ++ [.connect request]
        match reply with
        | .error e => (trace, .error (.transient e.message))
        | .ok resp => (trace, readResponse lib options parsed resp)

/-- The loop of `fetch_public`, with the turns that are left. -/
def fetchHops (options : FetchOptions) : Nat → String → List NetEvent →
    List NetEvent × Except FetchError FetchedBody
  | 0, _, trace => (trace, .error (.hard "too many redirects"))
  | hops + 1, url, trace =>
    match fetchHop lib world options url trace with
    | (trace, .error e) => (trace, .error e)
    | (trace, .ok (.fetched body)) => (trace, .ok body)
    | (trace, .ok (.redirect url)) => fetchHops options hops url trace

/-- `fetch_public` (`safe_fetch.py:145-239`). -/
def fetchPublic (options : FetchOptions) (url : String) (trace : List NetEvent) :
    List NetEvent × Except FetchError FetchedBody :=
  fetchHops lib world options (options.maxRedirects + 1) url trace

/-- `str(exc)`. -/
def FetchError.message : FetchError → String
  | .hard message => message
  | .denied message => message
  | .transient message => message
  | .uncaught name => name

/-- `_parse_retry_after` (`safe_fetch.py:276-283`). -/
def parseRetryAfter (value : Option String) : Option (WithTop ℚ) :=
  match value.bind fun value => lib.float (pyStrip value) with
  | some (.finite seconds) => if 0 ≤ seconds then some (seconds : WithTop ℚ) else none
  | some .inf => some ⊤
  | _ => none

/-- What is made of the response to a `POST` (`safe_fetch.py:318-336`). -/
def readPostResponse (snippetBytes : Nat) (resp : FetchResponse) : PostResult :=
  if resp.statusCode ∈ redirectStatuses then ⟨some resp.statusCode, some "redirect not followed", none, none⟩
  else
    let done (buf : List UInt8) : PostResult :=
      ⟨some resp.statusCode, none, if buf = [] then none else some (lib.decodeUtf8 buf),
        parseRetryAfter lib resp.retryAfter⟩
    match resp.ending with
    | .deadline => done []
    | .broken name message => ⟨none, some (name ++ ": " ++ message), none, none⟩
    | .complete =>
      match readBody resp.chunks snippetBytes true none with
      | .ok buf => done buf
      | .error e => ⟨none, some e.message, none, none⟩

/-- `post_public` (`safe_fetch.py:286-340`). -/
def postPublic (url body : String) (headers : List (String × String)) (snippetBytes : Nat)
    (trace : List NetEvent) : List NetEvent × Except FetchError PostResult :=
  match lib.parseUrl url with
  | .error message => (trace, .ok ⟨none, some message, none, none⟩)
  | .ok parsed =>
    if parsed.scheme ≠ "https" then (trace, .ok ⟨none, some "non-https URL", none, none⟩)
    else
      match resolvePublicIp lib world parsed.host trace with
      -- A `ValueError` is not among what is caught.
      | (trace, .error (.uncaught name)) => (trace, .error (.uncaught name))
      | (trace, .error e) => (trace, .ok ⟨none, some e.message, none, none⟩)
      | (trace, .ok ip) =>
        let request : FetchRequest := {
          method := "POST"
          url := { parsed with host := bracket ip }
          sniHostname := parsed.host
          headers := (PyDict.ofList (("Host", parsed.host) :: headers)).entries
          content := body }
        let reply := world.send trace request
        let trace := trace ++ [.connect request]
        match reply with
        | .error e => (trace, .ok ⟨none, some (e.name ++ ": " ++ e.message), none, none⟩)
        | .ok resp => (trace, .ok (readPostResponse lib snippetBytes resp))

end Spoo
