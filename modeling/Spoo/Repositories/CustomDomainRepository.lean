import Mathlib.Data.List.Sort
import Spoo.Schemas.Url

/-!
# Custom domains (`schemas/models/custom_domain.py`, `schemas/enums/domain_status.py`,
`repositories/custom_domain_repository.py`)

One document a registration of a name. The unique index on the name leaves revoked documents out, so that a
name can have several of these. No write of a status asks for the status that is stored. Times are in
milliseconds.
-/

namespace Spoo

open Mongo Mongo.Collection

/-- `DomainStatus`. -/
inductive DomainStatus where
  | pending
  | verifying
  | active
  | suspended
  | revoked
  deriving DecidableEq, Repr

/-- `VerificationMethod`. -/
inductive VerificationMethod where
  | cname
  | aRecord
  | txtChallenge
  | system
  | cfDelegatedDcv
  | cfHttpDcv
  deriving DecidableEq, Repr

/-- `CustomDomainDoc`: what the domain services and the tenant resolver read and write of it. -/
structure CustomDomainDoc where
  id : ObjectId
  fqdn : String
  ownerId : ObjectId
  status : DomainStatus := .pending
  verificationMethod : VerificationMethod
  isSystemDefault : Bool := false
  createdAt : Int
  updatedAt : Option Int := none
  lastVerifiedAt : Option Int := none
  lastVerificationError : Option String := none
  evictionPending : Bool := false
  lastEvictionError : Option String := none
  rootRedirect : Option String := none
  notFoundRedirect : Option String := none
  customRobotsTxt : Option String := none
  deriving DecidableEq, Repr

/-- The partial unique index of `custom_domains` (`indexes.py:222-229`): a revoked document is in it
under its own id, where it is alone. -/
def CustomDomainDoc.indexKey (doc : CustomDomainDoc) : String ⊕ ObjectId :=
  if doc.status = .revoked then .inr doc.id else .inl doc.fqdn

instance : Document CustomDomainDoc ObjectId (String ⊕ ObjectId) :=
  ⟨CustomDomainDoc.id, CustomDomainDoc.indexKey⟩

/-- The `custom_domains` collection. -/
abbrev DomainStore := Collection CustomDomainDoc

/-- `LEGAL_TRANSITIONS` (`custom_domain.py:76-85`). -/
def legalTransitions : DomainStatus → List DomainStatus
  | .pending => [.active, .revoked]
  | .verifying => [.active, .pending, .revoked]
  | .active => [.suspended, .revoked]
  | .suspended => [.active, .revoked]
  | .revoked => []

/-! ## The repository -/

namespace CustomDomainRepository

variable (domains : DomainStore) (domainId : ObjectId)

/-- `_canonical`, with `str.lower` from the library. -/
def canonical (lib : UrlLib) (fqdn : String) : String := rstripDots (lib.lower (pyStrip fqdn))

/-- `find_by_id`. -/
def findById : Option CustomDomainDoc := domains.lookup domainId

/-- `find_by_fqdn`, on a canonical name. -/
def findByFqdn (fqdn : String) : Option CustomDomainDoc := domains.findOne fun doc => doc.fqdn = fqdn

/-- `find_active_by_fqdn`, on a canonical name. -/
def findActiveByFqdn (fqdn : String) : Option CustomDomainDoc :=
  domains.findOne fun doc => doc.fqdn = fqdn && doc.status = .active

/-- `find_blocking_by_fqdn`, on a canonical name. -/
def findBlockingByFqdn (fqdn : String) : Option CustomDomainDoc :=
  domains.findOne fun doc => doc.fqdn = fqdn && doc.status ≠ .revoked

/-- `count_by_owner`. -/
def countByOwner (ownerId : ObjectId) : Nat := (domains.find fun doc => doc.ownerId = ownerId).length

/-- `list_by_owner`, the newest first. -/
def listByOwner (ownerId : ObjectId) (skip limit : Nat) : List CustomDomainDoc :=
  (((domains.find fun doc => doc.ownerId = ownerId).insertionSort fun a b => b.createdAt ≤ a.createdAt).drop
    skip).take limit

/-- `insert`: `none` is a `DuplicateKeyError`. -/
protected def insert (doc : CustomDomainDoc) : Option DomainStore := domains.insertOne doc

/-- `delete_by_id`, with whether a document was removed. -/
def deleteById : Bool × DomainStore :=
  ((domains.lookup domainId).isSome, domains.deleteMany fun doc => doc.id = domainId)

/-- The `$set` of `update_status` (`custom_domain_repository.py:104-130`). -/
def statusOps (newStatus : DomainStatus) (lastVerificationError : Option String)
    (bumpLastVerifiedAt : Bool) (now : Int) : Update CustomDomainDoc where
  apply doc := { doc with
    status := newStatus
    updatedAt := some now
    lastVerificationError
    lastVerifiedAt := if bumpLastVerifiedAt then some now else doc.lastVerifiedAt }
  id_apply _ := rfl

/-- `update_status`: `none` is a `DuplicateKeyError`. -/
def updateStatus (newStatus : DomainStatus) (lastVerificationError : Option String)
    (bumpLastVerifiedAt : Bool) (now : Int) : Option DomainStore :=
  domains.updateManyUnique (fun doc => doc.id = domainId)
    (statusOps newStatus lastVerificationError bumpLastVerifiedAt now)

section

variable {domains} {domains' : DomainStore} {domainId} {newStatus : DomainStatus} {error : Option String}
  {bump : Bool} {now : Int}

theorem docs_updateStatus (h : updateStatus domains domainId newStatus error bump now = some domains') :
    domains'.docs = domains.docs.map
      (applyWhere (fun doc => doc.id = domainId) (statusOps newStatus error bump now)) :=
  docs_updateManyUnique h

theorem lookup_updateStatus_self
    (h : updateStatus domains domainId newStatus error bump now = some domains') :
    domains'.lookup domainId = (domains.lookup domainId).map (statusOps newStatus error bump now).apply := by
  rw [lookup_updateManyUnique h]
  cases hdoc : domains.lookup domainId with
  | none => rfl
  | some doc =>
    have hid : doc.id = domainId := (lookup_eq_some_iff.1 hdoc).2
    simp [applyWhere, hid]

theorem lookup_updateStatus_of_ne
    (h : updateStatus domains domainId newStatus error bump now = some domains') {i : ObjectId}
    (hne : i ≠ domainId) : domains'.lookup i = domains.lookup i := by
  rw [lookup_updateManyUnique h]
  cases hdoc : domains.lookup i with
  | none => rfl
  | some doc =>
    have hid : doc.id = i := (lookup_eq_some_iff.1 hdoc).2
    simp [applyWhere, hid, hne]

/-- Another registration of the name is live, and the new status would make this one so too. -/
def nameTaken (domains : DomainStore) (stored : CustomDomainDoc) (newStatus : DomainStatus) : Bool :=
  newStatus ≠ .revoked && domains.docs.any fun other =>
    other.id ≠ stored.id && other.fqdn = stored.fqdn && other.status ≠ .revoked

/-- The index refuses what would make two registrations of a name live, and nothing else. -/
theorem isSome_updateStatus_iff {stored : CustomDomainDoc} (h : domains.lookup domainId = some stored) :
    (updateStatus domains domainId newStatus error bump now).isSome = true ↔
      nameTaken domains stored newStatus = false := by
  obtain ⟨hmem, rfl⟩ := lookup_eq_some_iff.1 h
  have hq : ∀ doc ∈ domains.docs, decide (doc.id = Document.id stored) = true ↔ doc = stored := by
    intro doc hdoc
    rw [decide_eq_true_eq]
    exact ⟨List.inj_on_of_nodup_map domains.nodup_id hdoc hmem, congrArg _⟩
  have hid (other : CustomDomainDoc) (hother : other ∈ domains.docs) (hne : other ≠ stored) :
      other.id ≠ stored.id :=
    fun hid => hne (List.inj_on_of_nodup_map domains.nodup_id hother hmem hid)
  have hkey (other : CustomDomainDoc) (hother : other ∈ domains.docs) (hne : other ≠ stored) :
      Document.key other = Document.key ((statusOps newStatus error bump now).apply stored) ↔
        newStatus ≠ .revoked ∧ other.fqdn = stored.fqdn ∧ other.status ≠ .revoked := by
    simp only [Document.key, CustomDomainDoc.indexKey, statusOps]
    by_cases hnew : newStatus = .revoked <;> by_cases hold : other.status = .revoked <;>
      simp [hnew, hold, hid other hother hne]
  rw [updateStatus, isSome_updateManyUnique_iff hmem hq, nameTaken, Bool.and_eq_false_iff,
    List.any_eq_false]
  constructor
  · intro hfree
    by_cases hnew : newStatus = .revoked
    · exact .inl (by simp [hnew])
    · refine .inr fun other hother htaken => ?_
      simp only [Bool.and_eq_true, decide_eq_true_eq] at htaken
      have hne : other ≠ stored := fun heq => htaken.1.1 (congrArg _ heq)
      exact hfree other hother hne ((hkey other hother hne).2 ⟨hnew, htaken.1.2, htaken.2⟩)
  · intro hfree other hother hne htaken
    obtain ⟨hnew, hname, hlive⟩ := (hkey other hother hne).1 htaken
    rcases hfree with hrevoked | hfree
    · simp [hnew] at hrevoked
    · exact hfree other hother (by simp [hid other hother hne, hname, hlive])

end

/-- `set_eviction_pending`. -/
def setEvictionPending (evictionPending : Bool) (error : Option String) (now : Int) : DomainStore :=
  domains.updateOne domainId (fun _ => true) {
    apply := fun doc => { doc with evictionPending, lastEvictionError := error, updatedAt := some now }
    id_apply := fun _ => rfl
    key_apply := fun _ => rfl }

/-- What `update_routing` is asked to set: each field that the caller gave. -/
structure RoutingOps where
  rootRedirect : Option (Option String) := none
  notFoundRedirect : Option (Option String) := none
  customRobotsTxt : Option (Option String) := none
  deriving DecidableEq, Repr

/-- `update_routing`, with whether a document matched. -/
def updateRouting (ops : RoutingOps) (now : Int) : Bool × DomainStore :=
  if ops = {} then (false, domains)
  else ((domains.lookup domainId).isSome, domains.updateOne domainId (fun _ => true) {
    apply := fun doc => { doc with
      rootRedirect := ops.rootRedirect.getD doc.rootRedirect
      notFoundRedirect := ops.notFoundRedirect.getD doc.notFoundRedirect
      customRobotsTxt := ops.customRobotsTxt.getD doc.customRobotsTxt
      updatedAt := some now }
    id_apply := fun _ => rfl
    key_apply := fun _ => rfl })

/-- The filter of `find_stale_active`. -/
def isStaleActive (olderThan : Int) (doc : CustomDomainDoc) : Bool :=
  doc.status = .active && !doc.isSystemDefault && doc.lastVerifiedAt.all (· < olderThan)

/-- `find_stale_active`: the longest unverified first, and those before all that never were. -/
def findStaleActive (olderThan : Int) (limit : Nat) : List CustomDomainDoc :=
  ((domains.find (isStaleActive olderThan)).mergeSort fun a b =>
    match a.lastVerifiedAt, b.lastVerifiedAt with
    | none, _ => true
    | some _, none => false
    | some first, some second => first ≤ second).take limit

end CustomDomainRepository

end Spoo
