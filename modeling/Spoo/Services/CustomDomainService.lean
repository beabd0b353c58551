import Spoo.Lib.Agents
import Spoo.Repositories.CustomDomainRepository

/-!
# Custom domains (`services/custom_domain_service.py`)

Owners register, verify, configure, revoke and remove their domains, while a worker verifies active ones again and
suspends them. Each access to the collection is a move of its own, and so is what is asked of DNS, the edge and the
registrar in between. A move knows only what its call has read before. The registration is given once more as one call
with the way each of its accesses may fail, where the documents carry what the registrar answers.
-/

namespace Spoo

open Agents Mongo Mongo.Collection

section

/-- How the service is set up and wired. -/
structure DomainConfig where
  lib : UrlLib
  enabled : Bool := true
  maxPerUser : Nat := 1
  maxVerifyAgeSeconds : Nat := 604800
  reverifyBatchSize : Nat := 10
  /-- `_preflight_cname_target` is set. -/
  preflights : Bool := true
  /-- The methods that have a verifier. -/
  verifiers : List VerificationMethod

/-- What the service raises. -/
inductive DomainError where
  | featureDisabled
  | invalidName
  | blocklisted
  | alreadyRegistered
  | quotaExceeded
  | unsupportedMethod
  | registrarFailed
  | notFound
  | forbidden
  | tooManyAttempts
  | noVerifier
  | illegalTransition (before after : DomainStatus)
  | notVerified
  | notRevoked
  | modifiedConcurrently
  | duplicateKey
  /-- The exception of the repository. -/
  | repository
  deriving DecidableEq, Repr

/-- What a call is answered. -/
inductive DomainOutcome where
  | domain (doc : CustomDomainDoc)
  | suspended
  /-- Each document of the batch, with whether it was verified. -/
  | reverified (results : List (CustomDomainDoc × Bool))
  | refused (error : DomainError)
  deriving DecidableEq, Repr

/-- A call on one domain. -/
inductive DomainCall where
  | verify (user : ObjectId)
  | updateRouting (user : ObjectId) (ops : CustomDomainRepository.RoutingOps)
  | delete (user : ObjectId)
  | removeRevoked (user : ObjectId)
  | suspend (reason : String)
  deriving DecidableEq, Repr

/-- What a write of a status is part of. -/
inductive StatusGoal where
  | preflight
  | verified
  | unverified
  | revoke
  | suspend
  | reverify (rest : List CustomDomainDoc) (results : List (CustomDomainDoc × Bool))
  deriving DecidableEq, Repr

/-- Where a call stands, with what it has read. -/
inductive DomainPhase where
  | idle (last : Option DomainOutcome)
  | checking (fqdn : String) (user : ObjectId)
  | counting (fqdn : String) (user : ObjectId)
  | inserting (fqdn : String) (user : ObjectId) (method : VerificationMethod)
  | registering (domainId : ObjectId)
  | rollingBack (domainId : ObjectId)
  | reloading (domainId : ObjectId)
  | loading (domainId : ObjectId) (call : DomainCall)
  | probing (doc : CustomDomainDoc)
  | writing (doc : CustomDomainDoc) (newStatus : DomainStatus) (error : Option String)
      (bumpLastVerifiedAt : Bool) (goal : StatusGoal)
  | evicting (doc : CustomDomainDoc) (goal : StatusGoal)
  | routing (doc : CustomDomainDoc) (ops : CustomDomainRepository.RoutingOps)
  | removing (doc : CustomDomainDoc)
  | refreshing (doc : CustomDomainDoc) (strict : Bool)
  | sweeping (limit : Nat)
  | reverifying (rest : List CustomDomainDoc) (results : List (CustomDomainDoc × Bool))
  deriving DecidableEq, Repr

/-- What comes with a move. -/
inductive DomainChoice where
  | go
  | create (fqdn : String) (user : ObjectId)
  | call (domainId : ObjectId) (call : DomainCall)
  | reverifyActive (batchSize : Option Nat)
  /-- The call to the collection fails and has had no effect. -/
  | failBefore
  /-- The call to the collection fails and has had its effect. -/
  | failAfter
  deriving DecidableEq, Repr

/-- What DNS, the edge, the registrar and the counters answer. -/
structure DomainOutside where
  blocklisted : Bool := false
  registered : Bool := true
  attemptsExceeded : Bool := false
  /-- The reason of a preflight that is not ok. -/
  preflightFailure : Option String := none
  verified : Bool := true
  reason : Option String := none
  edgeEvicted : Bool := true
  deriving DecidableEq, Repr

/-- The time since the last move of anyone, and what comes with this one. -/
structure DomainAnswer where
  delay : Nat
  choice : DomainChoice
  outside : DomainOutside := {}
  deriving DecidableEq, Repr

/-- The collection, the clock, and how many ids have been drawn. -/
structure DomainWorld where
  domains : DomainStore
  clock : Int
  issued : Nat

/-- The clock goes on. -/
def DomainWorld.wait (s : DomainWorld) (delay : Nat) : DomainWorld := { s with clock := s.clock + delay }

namespace CustomDomainService

open CustomDomainRepository

variable (cfg : DomainConfig)

/-- The call ends with an exception. -/
def refuse (error : DomainError) : DomainPhase := .idle (some (.refused error))

/-- `_pick_verification_method`. -/
def pickVerificationMethod (fqdn : String) : VerificationMethod :=
  if .cfHttpDcv ∈ cfg.verifiers then .cfHttpDcv
  else if isRegistrableApex cfg.lib fqdn ∧ .aRecord ∈ cfg.verifiers then .aRecord
  else .cname

/-- `_transition`, up to its write (`custom_domain_service.py:655-683`). -/
def transition (doc : CustomDomainDoc) (newStatus : DomainStatus) (error : Option String)
    (bumpLastVerifiedAt : Bool) (goal : StatusGoal) : DomainPhase :=
  if doc.status = newStatus then .writing doc newStatus error bumpLastVerifiedAt goal
  else if newStatus ∉ legalTransitions doc.status then refuse (.illegalTransition doc.status newStatus)
  else .writing doc newStatus error bumpLastVerifiedAt goal

/-- What a call does with the document that it has loaded. -/
def dispatch (call : DomainCall) (doc : CustomDomainDoc) : DomainPhase :=
  match call with
  | .verify user => if doc.ownerId ≠ user then refuse .forbidden else .probing doc
  | .updateRouting user ops =>
    if doc.ownerId ≠ user then refuse .forbidden
    else if doc.status ≠ .active then refuse .notVerified
    else if ops = {} then .idle (some (.domain doc))
    else .routing doc ops
  | .delete user =>
    if doc.ownerId ≠ user then refuse .forbidden else transition doc .revoked none false .revoke
  | .removeRevoked user =>
    if doc.ownerId ≠ user then refuse .forbidden
    else if doc.status ≠ .revoked then refuse .notRevoked
    else .removing doc
  | .suspend reason => transition doc .suspended (some reason) false .suspend

/-- The quota, the preflight and the verifier of `verify` (`custom_domain_service.py:176-254`). -/
def probe (outside : DomainOutside) (doc : CustomDomainDoc) : DomainPhase :=
  if outside.attemptsExceeded then refuse .tooManyAttempts
  else if cfg.preflights ∧ outside.preflightFailure.isSome then
    .writing doc doc.status outside.preflightFailure false .preflight
  else if doc.verificationMethod ∉ cfg.verifiers then refuse .noVerifier
  else if outside.verified then transition doc .active none true .verified
  else .writing doc doc.status outside.reason false .unverified

/-- What follows a write of a status. -/
def afterWrite (doc : CustomDomainDoc) (goal : StatusGoal) : DomainPhase :=
  match goal with
  | .preflight => .refreshing doc false
  | .verified => .refreshing doc true
  | .unverified => .refreshing doc true
  | .revoke => .evicting doc .revoke
  | .suspend => .evicting doc .suspend
  | .reverify rest results => .reverifying rest results

/-- One move of a call. -/
def move (answer : DomainAnswer) (phase : DomainPhase) (s : DomainWorld) : DomainPhase × DomainWorld :=
  match phase with
  | .idle last =>
    match answer.choice with
    | .create fqdn user =>
      if cfg.enabled = false then (refuse .featureDisabled, s)
      else match normaliseFqdn cfg.lib fqdn with
        | .error _ => (refuse .invalidName, s)
        | .ok fqdn =>
          if answer.outside.blocklisted then (refuse .blocklisted, s) else (.checking fqdn user, s)
    | .call domainId (.suspend reason) => (.loading domainId (.suspend reason), s)
    | .call domainId call =>
      if cfg.enabled = false then (refuse .featureDisabled, s) else (.loading domainId call, s)
    | .reverifyActive batchSize => (.sweeping ((batchSize.filter (· ≠ 0)).getD cfg.reverifyBatchSize), s)
    | _ => (.idle last, s)
  | .checking fqdn user =>
    if (findBlockingByFqdn s.domains fqdn).isSome then (refuse .alreadyRegistered, s)
    else (.counting fqdn user, s)
  | .counting fqdn user =>
    if cfg.maxPerUser ≤ countByOwner s.domains user then (refuse .quotaExceeded, s)
    else if pickVerificationMethod cfg fqdn ∉ cfg.verifiers then (refuse .unsupportedMethod, s)
    else (.inserting fqdn user (pickVerificationMethod cfg fqdn), s)
  | .inserting fqdn user method =>
    match CustomDomainRepository.insert s.domains {
        id := s.issued
        fqdn
        ownerId := user
        verificationMethod := method
        createdAt := s.clock } with
    | none => (refuse .alreadyRegistered, s)
    | some domains => (.registering s.issued, { s with domains, issued := s.issued + 1 })
  | .registering domainId =>
    -- `update_edge_metadata` writes fields of the registrar alone.
    if answer.outside.registered then (.reloading domainId, s) else (.rollingBack domainId, s)
  | .rollingBack domainId =>
    (refuse .registrarFailed, { s with domains := (deleteById s.domains domainId).2 })
  | .reloading domainId =>
    match findById s.domains domainId with
    | none => (refuse .notFound, s)
    | some doc => (.idle (some (.domain doc)), s)
  | .loading domainId call =>
    match findById s.domains domainId, call with
    | none, .suspend _ => (.idle (some .suspended), s)
    | none, _ => (refuse .notFound, s)
    | some doc, call => (dispatch call doc, s)
  | .probing doc => (probe cfg answer.outside doc, s)
  | .writing doc newStatus error bumpLastVerifiedAt goal =>
    match updateStatus s.domains doc.id newStatus error bumpLastVerifiedAt s.clock with
    | none => (refuse .duplicateKey, s)
    | some domains => (afterWrite doc goal, { s with domains })
  | .evicting doc goal =>
    let kind := if goal = .revoke then "revoked" else "suspended"
    let error := if answer.outside.edgeEvicted then none else some s!"caddy {kind} eviction failed"
    (if goal = .revoke then .refreshing doc false else .idle (some .suspended), { s with
      domains := setEvictionPending s.domains doc.id (!answer.outside.edgeEvicted) error s.clock })
  | .routing doc ops =>
    let (updated, domains) := updateRouting s.domains doc.id ops s.clock
    if updated then (.refreshing doc false, { s with domains })
    else (refuse .modifiedConcurrently, { s with domains })
  | .removing doc =>
    let (deleted, domains) := deleteById s.domains doc.id
    if deleted then (.idle (some (.domain doc)), { s with domains })
    else (refuse .notFound, { s with domains })
  | .refreshing doc strict =>
    match findById s.domains doc.id with
    | none => (if strict then refuse .notFound else .idle (some (.domain doc)), s)
    | some refreshed => (.idle (some (.domain refreshed)), s)
  | .sweeping limit =>
    (.reverifying (findStaleActive s.domains (s.clock - cfg.maxVerifyAgeSeconds * 1000) limit) [], s)
  | .reverifying [] results => (.idle (some (.reverified results)), s)
  | .reverifying (doc :: rest) results =>
    if doc.verificationMethod ∉ cfg.verifiers then (.reverifying rest results, s)
    else if answer.outside.verified then
      (.writing doc .active none true (.reverify rest (results ++ [(doc, true)])), s)
    else (.writing doc doc.status answer.outside.reason false
      (.reverify rest (results ++ [(doc, false)])), s)

/-- Where a call stands after its access to the collection has failed. -/
def afterFailure (phase : DomainPhase) : DomainPhase :=
  match phase with
  | .idle last => .idle last
  | .rollingBack _ => refuse .registrarFailed
  | _ => refuse .repository

/-- One move of a call, with the failures of its access. -/
def act (answer : DomainAnswer) (phase : DomainPhase) (s : DomainWorld) : DomainPhase × DomainWorld :=
  match answer.choice with
  | .failBefore => (afterFailure phase, s)
  | .failAfter => (afterFailure phase, (move cfg answer phase s).2)
  | _ => move cfg answer phase s

/-- `assert_owned`, on the collection as it is (`custom_domain_service.py:498-513`). -/
def assertOwned (domains : DomainStore) (user : ObjectId) (fqdn : String) :
    Except DomainError CustomDomainDoc :=
  match findByFqdn domains (canonical cfg.lib fqdn) with
  | none => .error .notFound
  | some doc => if doc.ownerId ≠ user then .error .forbidden else .ok doc

/-- `assert_owned_and_active` (`custom_domain_service.py:515-525`). -/
def assertOwnedAndActive (domains : DomainStore) (user : ObjectId) (fqdn : String) :
    Except DomainError CustomDomainDoc := do
  let doc ← assertOwned cfg domains user fqdn
  if doc.status ≠ .active then .error .notVerified else .ok doc

end CustomDomainService

/-- One move of a call. -/
def DomainPhase.move {ι : Type} (cfg : DomainConfig) : Move ι DomainAnswer DomainPhase DomainWorld :=
  fun _ answer phase s => CustomDomainService.act cfg answer phase (s.wait answer.delay)

/-! ## The erasure of an account's domains -/

/-- How `delete_all_for_owner` fails. -/
inductive DomainErasureError where
  /-- `AppError`. -/
  | app (message : String)
  /-- Whatever a call raises. -/
  | raised (name : String)
  deriving DecidableEq, Repr

/-- A call to the collection that raises, before its effect or after it. -/
inductive CallFault where
  | before (name : String)
  | after (name : String)
  deriving DecidableEq, Repr

/-- What goes on around the erasure, call by call: what others have done to the collection since the last
call, and how the call ends. -/
structure ErasureOutside where
  others : Nat → DomainStore → DomainStore
  collection : Nat → Option CallFault := fun _ => none
  /-- `delete_all_by_domain` of the links, where it is wired: the exception it raises. -/
  cascade : Nat → Option String := fun _ => none
  /-- `announce_revoked`: its flag, or the exception it raises. -/
  edge : Nat → Except String Bool := fun _ => .ok true
  /-- `_invalidate_cache`: the exception it raises. -/
  cache : Nat → Option String := fun _ => none
  /-- `_url_service` is set. -/
  cascades : Bool := true

/-- The collection, how many calls have been made, and how many pages have been listed. -/
structure ErasureState where
  domains : DomainStore
  calls : Nat := 0
  passes : Nat := 0

namespace ErasureOutside

open CustomDomainRepository

variable (outside : ErasureOutside)

/-- The state that a call finds. -/
def arrive (s : ErasureState) : ErasureState :=
  { s with domains := outside.others s.calls s.domains, calls := s.calls + 1 }

/-- A call to the collection. -/
def onCollection {α : Type} (f : DomainStore → α × DomainStore) (s : ErasureState) :
    Except DomainErasureError α × ErasureState :=
  let found := outside.arrive s
  match outside.collection s.calls with
  | some (.before name) => (.error (.raised name), found)
  | some (.after name) => (.error (.raised name), { found with domains := (f found.domains).2 })
  | none => (.ok (f found.domains).1, { found with domains := (f found.domains).2 })

/-- A call to something else. -/
def elsewhere {α : Type} (answer : Nat → Except String α) (s : ErasureState) :
    Except DomainErasureError α × ErasureState :=
  match answer s.calls with
  | .error name => (.error (.raised name), outside.arrive s)
  | .ok a => (.ok a, outside.arrive s)

/-- A call that answers nothing. -/
def unitAnswer (raises : Nat → Option String) (call : Nat) : Except String Unit :=
  match raises call with
  | some name => .error name
  | none => .ok ()

/-- What is done to each domain of a page. -/
def eraseDomain (doc : CustomDomainDoc) (s : ErasureState) : Except DomainErasureError Unit × ErasureState :=
  match if outside.cascades then outside.elsewhere (unitAnswer outside.cascade) s else (.ok (), s) with
  | (.error e, s) => (.error e, s)
  | (.ok (), s) =>
    match outside.elsewhere outside.edge s with
    | (.error e, s) => (.error e, s)
    | (.ok false, s) => (.error (.app "domain erasure edge revocation failed"), s)
    | (.ok true, s) =>
      match outside.elsewhere (unitAnswer outside.cache) s with
      | (.error e, s) => (.error e, s)
      | (.ok (), s) =>
        match outside.onCollection (fun domains => deleteById domains doc.id) s with
        | (.error e, s) => (.error e, s)
        | (.ok false, s) => (.error (.app "domain erasure delete removed nothing"), s)
        | (.ok true, s) => (.ok (), s)

/-- The inner loop, with how many domains have been removed. -/
def erasePage : List CustomDomainDoc → Nat → ErasureState → Except DomainErasureError Nat × ErasureState
  | [], removed, s => (.ok removed, s)
  | doc :: page, removed, s =>
    match outside.eraseDomain doc s with
    | (.error e, s) => (.error e, s)
    | (.ok (), s) => erasePage page (removed + 1) s

/-- `_ERASE_PAGE_SIZE`. -/
def erasePageSize : Nat := 50

/-- The outer loop, with the passes that are left. -/
def erasePasses (ownerId : ObjectId) :
    Nat → Nat → ErasureState → Except DomainErasureError Nat × ErasureState
  | 0, _, s => (.error (.app "domain erasure did not drain the owner's domains"), s)
  | passes + 1, removed, s =>
    match outside.onCollection (fun domains => (listByOwner domains ownerId 0 erasePageSize, domains))
        { s with passes := s.passes + 1 } with
    | (.error e, s) => (.error e, s)
    | (.ok [], s) => (.ok removed, s)
    | (.ok (doc :: page), s) =>
      match outside.erasePage (doc :: page) removed s with
      | (.error e, s) => (.error e, s)
      | (.ok removed, s) => erasePasses ownerId passes removed s

/-- `delete_all_for_owner` (`custom_domain_service.py:393-464`). -/
def deleteAllForOwner (ownerId : ObjectId) (s : ErasureState) : Except DomainErasureError Nat × ErasureState :=
  match outside.onCollection (fun domains => (countByOwner domains ownerId, domains)) s with
  | (.error e, s) => (.error e, s)
  | (.ok total, s) => outside.erasePasses ownerId (total / erasePageSize + 2) 0 s

end ErasureOutside

end

/-! ## The registration of a domain -/

/-- A document of the collection, with the bookkeeping of the edge. -/
structure DomainRecord extends CustomDomainDoc where
  verificationToken : Option String := none
  cfHostnameId : Option String := none
  cfStatus : Option String := none
  cfSslStatus : Option String := none
  dnsInstructions : List (PyDict String String) := []
  setupNotes : List String := []

instance : Document DomainRecord ObjectId (String ⊕ ObjectId) :=
  ⟨fun record => record.id, fun record => record.indexKey⟩

/-- The `custom_domains` collection, with the bookkeeping of the edge. -/
abbrev RecordStore := Collection DomainRecord

/-- The documents without the bookkeeping. -/
def RecordStore.domains (records : RecordStore) : DomainStore where
  docs := records.docs.map DomainRecord.toCustomDomainDoc
  nodup_id := by
    rw [List.map_map]
    exact records.nodup_id
  nodup_key := by
    rw [List.map_map]
    exact records.nodup_key

/-- `RegistrationResult`. -/
structure RegistrationResult where
  backendId : Option String
  instructions : List (PyDict String String) := []
  backendMetadata : PyDict String String := .empty

/-- How an access to the collection fails: without an effect, or with the one it was to have. -/
inductive AccessFault where
  | before
  | after
  deriving DecidableEq, Repr

/-- The accesses of one call that fail. -/
structure RegistrationFaults where
  blocklist : Bool := false
  uniqueness : Bool := false
  quota : Bool := false
  insert : Option AccessFault := none
  delete : Option AccessFault := none
  metadata : Option AccessFault := none
  reload : Bool := false
  deriving DecidableEq, Repr

/-- What one call draws, and what it is answered by DNS, the blocklist and the registrar. -/
structure RegistrationOutside where
  newId : ObjectId
  token : String
  now : Int
  /-- The clock when the bookkeeping is written. -/
  later : Int
  blocklisted : Bool := false
  /-- `uses_cloudflare_dns`: `none` is an exception. -/
  usesCloudflareDns : Option Bool := some false
  /-- `register`: `none` is an exception. -/
  registration : Option RegistrationResult

/-- What one call comes to. -/
structure RegistrationRun where
  outcome : Except DomainError DomainRecord
  records : RecordStore
  /-- `audit.domain.registration_rollback_failed` was logged. -/
  rollbackFailed : Bool := false

/-- The exception of a call. -/
def RegistrationRun.error? (run : RegistrationRun) : Option DomainError :=
  match run.outcome with
  | .error error => some error
  | .ok _ => none

namespace CustomDomainRepository

/-- An access to the collection, with the way it fails. -/
def access {α : Type} (fault : Option AccessFault) (records : RecordStore)
    (call : Except DomainError α × RecordStore) : Except DomainError α × RecordStore :=
  match fault with
  | none => call
  | some .before => (.error .repository, records)
  | some .after => (.error .repository, call.2)

@[simp] theorem access_none {α : Type} (records : RecordStore) (call : Except DomainError α × RecordStore) :
    access none records call = call := rfl

@[simp] theorem access_before {α : Type} (records : RecordStore)
    (call : Except DomainError α × RecordStore) :
    access (some .before) records call = (.error .repository, records) := rfl

@[simp] theorem access_after {α : Type} (records : RecordStore)
    (call : Except DomainError α × RecordStore) :
    access (some .after) records call = (.error .repository, call.2) := rfl

/-- `insert`. -/
def insertRecord (records : RecordStore) (record : DomainRecord) :
    Except DomainError ObjectId × RecordStore :=
  match records.insertOne record with
  | none => (.error .duplicateKey, records)
  | some records => (.ok record.id, records)

/-- `delete_by_id`. -/
def deleteRecord (records : RecordStore) (domainId : ObjectId) : Except DomainError Bool × RecordStore :=
  (.ok (records.lookup domainId).isSome, records.deleteMany fun record => record.id = domainId)

/-- What `update_edge_metadata` is asked to write: the fields that are not `None`. -/
structure EdgeOps where
  cfHostnameId : Option String := none
  cfStatus : Option String := none
  cfSslStatus : Option String := none
  dnsInstructions : Option (List (PyDict String String)) := none

/-- `if not ops`. -/
def EdgeOps.isEmpty (ops : EdgeOps) : Bool :=
  ops.cfHostnameId.isNone && ops.cfStatus.isNone && ops.cfSslStatus.isNone && ops.dnsInstructions.isNone

/-- The `$set` of `update_edge_metadata`. -/
def EdgeOps.update (ops : EdgeOps) (now : Int) : KeyedUpdate DomainRecord where
  apply record := { record with
    cfHostnameId := ops.cfHostnameId.or record.cfHostnameId
    cfStatus := ops.cfStatus.or record.cfStatus
    cfSslStatus := ops.cfSslStatus.or record.cfSslStatus
    dnsInstructions := ops.dnsInstructions.getD record.dnsInstructions
    updatedAt := some now }
  id_apply _ := rfl
  key_apply _ := rfl

/-- `update_edge_metadata`, with whether a document matched (`custom_domain_repository.py:177-208`). -/
def updateEdgeMetadata (fault : Option AccessFault) (records : RecordStore) (domainId : ObjectId)
    (ops : EdgeOps) (now : Int) : Except DomainError Bool × RecordStore :=
  if ops.isEmpty then (.ok false, records)
  else access fault records
    (.ok (records.lookup domainId).isSome, records.updateOne domainId (fun _ => true) (ops.update now))

/-- `find_by_id`. -/
def findRecord (fails : Bool) (records : RecordStore) (domainId : ObjectId) :
    Except DomainError (Option DomainRecord) :=
  if fails then .error .repository else .ok (records.lookup domainId)

end CustomDomainRepository

namespace CustomDomainService

open CustomDomainRepository

/-- What `update_edge_metadata` is handed (`custom_domain_service.py:150-156`). -/
def edgeOps (registration : RegistrationResult) : EdgeOps where
  cfHostnameId := registration.backendId
  cfStatus := registration.backendMetadata.get? "cf_status"
  cfSslStatus := registration.backendMetadata.get? "cf_ssl_status"
  dnsInstructions := if registration.instructions = [] then none else some registration.instructions

/-- The registrar has something to keep (`custom_domain_service.py:145-149`). -/
def hasBookkeeping (registration : RegistrationResult) : Bool :=
  registration.backendId.isSome || decide (registration.backendMetadata.entries ≠ []) ||
    decide (registration.instructions ≠ [])

section

variable (cfg : DomainConfig) (outside : RegistrationOutside) (faults : RegistrationFaults)

/-- `_build_setup_notes`: an exception of the lookup is logged. -/
def buildSetupNotes : List String :=
  if cfg.preflights ∧ outside.usesCloudflareDns = some true then
    ["Cloudflare DNS detected. Set the record to DNS only " ++
      "(grey cloud icon), not Proxied (orange cloud), or " ++ "verification will fail."]
  else []

/-- The checks before the insert (`custom_domain_service.py:91-101`), with the name that the request
has normalised. -/
def screen (fqdn : String) (user : ObjectId) (domains : DomainStore) :
    Except DomainError (String × VerificationMethod) := do
  let name ← match normaliseFqdn cfg.lib fqdn with
    | .error _ => .error .invalidName
    | .ok name => .ok name
  if cfg.enabled = false then .error .featureDisabled
  if faults.blocklist then .error .repository
  if outside.blocklisted then .error .blocklisted
  if faults.uniqueness then .error .repository
  if (findBlockingByFqdn domains name).isSome then .error .alreadyRegistered
  if faults.quota then .error .repository
  if cfg.maxPerUser ≤ countByOwner domains user then .error .quotaExceeded
  if pickVerificationMethod cfg name ∉ cfg.verifiers then .error .unsupportedMethod
  return (name, pickVerificationMethod cfg name)

/-- The document that `create` builds. -/
def newRecord (name : String) (user : ObjectId) (method : VerificationMethod) : DomainRecord where
  id := outside.newId
  fqdn := name
  ownerId := user
  verificationMethod := method
  verificationToken := some outside.token
  createdAt := outside.now
  setupNotes := buildSetupNotes cfg outside

@[simp] theorem id_newRecord (name : String) (user : ObjectId) (method : VerificationMethod) :
    (newRecord cfg outside name user method).id = outside.newId := rfl

/-- What follows an exception of the registrar (`custom_domain_service.py:123-143`). -/
def rollBack (newId : ObjectId) (records : RecordStore) : RegistrationRun :=
  match access faults.delete records (deleteRecord records newId) with
  | (.error _, records) => { outcome := .error .registrarFailed, records, rollbackFailed := true }
  | (.ok _, records) => { outcome := .error .registrarFailed, records }

/-- The answer of `create`, from the document as it is now (`custom_domain_service.py:166-169`). -/
def reloaded (newId : ObjectId) (records : RecordStore) : RegistrationRun where
  outcome := match findRecord faults.reload records newId with
    | .error error => .error error
    | .ok none => .error .notFound
    | .ok (some created) => .ok created
  records

/-- What follows an answer of the registrar (`custom_domain_service.py:145-169`). -/
def keepBookkeeping (registration : RegistrationResult) (newId : ObjectId) (records : RecordStore) :
    RegistrationRun :=
  if hasBookkeeping registration then
    match updateEdgeMetadata faults.metadata records newId (edgeOps registration) outside.later with
    | (.error error, records) => { outcome := .error error, records }
    | (.ok _, records) => reloaded faults newId records
  else reloaded faults newId records

/-- `create` (`custom_domain_service.py:85-169`). -/
def create (fqdn : String) (user : ObjectId) (records : RecordStore) : RegistrationRun :=
  match screen cfg outside faults fqdn user records.domains with
  | .error error => { outcome := .error error, records }
  | .ok (name, method) =>
    match access faults.insert records (insertRecord records (newRecord cfg outside name user method)) with
    -- The index is the backstop for concurrent inserts.
    | (.error .duplicateKey, records) => { outcome := .error .alreadyRegistered, records }
    | (.error error, records) => { outcome := .error error, records }
    | (.ok newId, records) =>
      match outside.registration with
      | none => rollBack faults newId records
      | some registration => keepBookkeeping outside faults registration newId records

end

end CustomDomainService

end Spoo
