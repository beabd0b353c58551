import Spoo.Services.CustomDomainService

/-!
# A failed registration

The insert is undone when the registrar raises, and nothing undoes it after that. A call that ends with an
exception leaves the collection as it was exactly if no access fails between the insert and the answer,
the compensating delete apart.
-/

namespace Spoo

open Mongo Mongo.Collection CustomDomainRepository CustomDomainService

variable {cfg : DomainConfig} {outside : RegistrationOutside} {faults : RegistrationFaults}
  {fqdn name : String} {user : ObjectId} {method : VerificationMethod} {records records' : RecordStore}

/-! ## The checks -/

/-- What lets a registration come to its insert, and the insert be accepted. -/
structure Admitted (cfg : DomainConfig) (outside : RegistrationOutside) (faults : RegistrationFaults)
    (fqdn : String) (user : ObjectId) (records : RecordStore) (name : String) : Prop where
  normalised : normaliseFqdn cfg.lib fqdn = .ok name
  enabled : cfg.enabled = true
  reads : faults.blocklist = false ∧ faults.uniqueness = false ∧ faults.quota = false
  notBlocklisted : outside.blocklisted = false
  free : ∀ record ∈ records.docs, record.fqdn = name → record.status = .revoked
  belowQuota : countByOwner records.domains user < cfg.maxPerUser
  verifiable : pickVerificationMethod cfg name ∈ cfg.verifiers
  fresh : ∀ record ∈ records.docs, record.id ≠ outside.newId

theorem findBlockingByFqdn_domains :
    (findBlockingByFqdn records.domains name).isSome = false ↔
      ∀ record ∈ records.docs, record.fqdn = name → record.status = .revoked := by
  rw [← Bool.not_eq_true, findBlockingByFqdn, findOne, RecordStore.domains, List.find?_isSome]
  simp only [List.mem_map, not_exists, not_and]
  constructor
  · intro hnone record hmem hname
    have hpasses := hnone _ ⟨record, hmem, rfl⟩
    simpa [hname] using hpasses
  · rintro hfree _ ⟨record, hmem, rfl⟩
    simpa using hfree record hmem

theorem screen_eq_ok_iff :
    screen cfg outside faults fqdn user records.domains = .ok (name, method) ↔
      normaliseFqdn cfg.lib fqdn = .ok name ∧ cfg.enabled = true ∧
        (faults.blocklist = false ∧ faults.uniqueness = false ∧ faults.quota = false) ∧
        outside.blocklisted = false ∧
        (∀ record ∈ records.docs, record.fqdn = name → record.status = .revoked) ∧
        countByOwner records.domains user < cfg.maxPerUser ∧
        pickVerificationMethod cfg name ∈ cfg.verifiers ∧ pickVerificationMethod cfg name = method := by
  unfold screen
  cases hname : normaliseFqdn cfg.lib fqdn with
  | error error => simp [bind, Except.bind]
  | ok found =>
    by_cases hfound : found = name
    · subst hfound
      rw [← findBlockingByFqdn_domains, ← Nat.not_le]
      simp only [bind, Except.bind, pure, Except.pure]
      grind
    · simp only [Except.ok.injEq, hfound, false_and, iff_false]
      simp only [bind, Except.bind, pure, Except.pure]
      grind

/-- The index lets in what the checks let through, under an id that is new. -/
theorem isSome_insertOne_newRecord
    (hfree : ∀ record ∈ records.docs, record.fqdn = name → record.status = .revoked) :
    (records.insertOne (newRecord cfg outside name user method)).isSome = true ↔
      ∀ record ∈ records.docs, record.id ≠ outside.newId := by
  rw [isSome_insertOne_iff]
  constructor
  · exact And.left
  · intro hfresh
    refine ⟨hfresh, fun record hmem => ?_⟩
    by_cases hrevoked : record.status = .revoked
    · simp [Document.key, CustomDomainDoc.indexKey, newRecord, hrevoked]
    · have hother : record.fqdn ≠ name := fun hname => hrevoked (hfree record hmem hname)
      simpa [Document.key, CustomDomainDoc.indexKey, newRecord, hrevoked] using hother

theorem admitted_iff (hscreen : screen cfg outside faults fqdn user records.domains = .ok (name, method)) :
    Admitted cfg outside faults fqdn user records name ↔
      (records.insertOne (newRecord cfg outside name user method)).isSome = true := by
  obtain ⟨hname, henabled, hreads, hblock, hfree, hquota, hmethod, -⟩ := screen_eq_ok_iff.1 hscreen
  rw [isSome_insertOne_newRecord hfree]
  exact ⟨Admitted.fresh, fun hfresh => ⟨hname, henabled, hreads, hblock, hfree, hquota, hmethod, hfresh⟩⟩

theorem Admitted.screen_eq (h : Admitted cfg outside faults fqdn user records name) :
    screen cfg outside faults fqdn user records.domains = .ok (name, pickVerificationMethod cfg name) :=
  screen_eq_ok_iff.2 ⟨h.normalised, h.enabled, h.reads, h.notBlocklisted, h.free, h.belowQuota,
    h.verifiable, rfl⟩

/-! ## The compensation -/

/-- A call that raises leaves the collection as it was, unless the compensating delete has failed, and
one that answers has stored what the registrar gave. -/
def Compensated (outside : RegistrationOutside) (records : RecordStore) (run : RegistrationRun) : Prop :=
  match run.outcome with
  | .error _ => run.rollbackFailed = false → run.records = records
  | .ok created => created ∈ run.records.docs ∧ created.id = outside.newId ∧
      ∃ registration, outside.registration = some registration ∧
        created.cfHostnameId = registration.backendId ∧
        created.dnsInstructions = registration.instructions

/-- What an exception promises, as far as the deletes went through. -/
theorem Compensated.records_eq {run : RegistrationRun} (h : Compensated outside records run)
    (herror : run.error?.isSome = true) (hdeleted : run.rollbackFailed = false) : run.records = records := by
  obtain ⟨outcome, left, rollbackFailed⟩ := run
  cases outcome with
  | error error => exact h hdeleted
  | ok created => cases herror

/-- A collection with a document under a new id is not the one before. -/
theorem ne_of_lookup {created : DomainRecord} (hnew : records.lookup outside.newId = none)
    (h : records'.lookup outside.newId = some created) : records' ≠ records := by
  rintro rfl
  rw [h] at hnew
  cases hnew

theorem compensated_rollBack {record : DomainRecord} (h : records.insertOne record = some records') :
    Compensated outside records (rollBack faults record.id records') := by
  cases hdelete : faults.delete with
  | none =>
    simp only [Compensated, rollBack, hdelete, access_none, deleteRecord]
    exact fun _ => deleteMany_of_insertOne h fun e => decide_eq_true_iff
  | some fault =>
    -- The failure of the delete is reported, with or without its effect.
    cases fault <;> simp [Compensated, rollBack, hdelete]

theorem compensated_reloaded_iff {created : DomainRecord} {registration : RegistrationResult}
    (hregistration : outside.registration = some registration)
    (hnew : records.lookup outside.newId = none) (h : records'.lookup outside.newId = some created)
    (hbackend : created.cfHostnameId = registration.backendId)
    (hinstructions : created.dnsInstructions = registration.instructions) :
    Compensated outside records (reloaded faults outside.newId records') ↔ faults.reload = false := by
  cases hreload : faults.reload with
  | true =>
    simp only [Compensated, reloaded, findRecord, hreload, if_true, reduceCtorEq, iff_false]
    exact fun hleft => ne_of_lookup hnew h (hleft trivial)
  | false =>
    simp only [Compensated, reloaded, findRecord, hreload, Bool.false_eq_true, if_false, h, iff_true]
    obtain ⟨hmem, hid⟩ := lookup_eq_some_iff.1 h
    exact ⟨hmem, hid, registration, hregistration, hbackend, hinstructions⟩

/-- Without anything to keep there is nothing to write. -/
theorem isEmpty_edgeOps {registration : RegistrationResult} (h : hasBookkeeping registration = false) :
    (edgeOps registration).isEmpty = true := by
  simp only [hasBookkeeping, Bool.or_eq_false_iff, decide_eq_false_iff_not, not_not,
    Option.isSome_eq_false_iff, Option.isNone_iff_eq_none] at h
  obtain ⟨⟨hbackend, hmetadata⟩, hinstructions⟩ := h
  have hget (key : String) : registration.backendMetadata.get? key = none := by
    simp [PyDict.get?, hmetadata]
  simp [edgeOps, EdgeOps.isEmpty, hbackend, hget, hinstructions]

theorem of_isEmpty_edgeOps {registration : RegistrationResult} (h : (edgeOps registration).isEmpty = true) :
    registration.backendId = none ∧ registration.instructions = [] := by
  simp only [edgeOps, EdgeOps.isEmpty, Bool.and_eq_true, Option.isNone_iff_eq_none] at h
  obtain ⟨⟨⟨hbackend, -⟩, -⟩, hinstructions⟩ := h
  refine ⟨hbackend, ?_⟩
  by_contra hne
  simp [hne] at hinstructions

/-- The write of the bookkeeping, where it is made and where it is not. -/
theorem keepBookkeeping_eq (registration : RegistrationResult) (newId : ObjectId) :
    keepBookkeeping outside faults registration newId records =
      if (edgeOps registration).isEmpty then reloaded faults newId records
      else match faults.metadata with
        | none => reloaded faults newId (records.updateOne newId (fun _ => true)
            ((edgeOps registration).update outside.later))
        | some .before => { outcome := .error .repository, records }
        | some .after => {
            outcome := .error .repository
            records := records.updateOne newId (fun _ => true)
              ((edgeOps registration).update outside.later) } := by
  unfold keepBookkeeping
  cases hkeep : hasBookkeeping registration with
  | false => simp [isEmpty_edgeOps hkeep]
  | true =>
    cases hempty : (edgeOps registration).isEmpty with
    | true => simp [updateEdgeMetadata, hempty]
    | false =>
      cases hfault : faults.metadata with
      | none => simp [updateEdgeMetadata, hempty]
      | some fault => cases fault <;> simp [updateEdgeMetadata, hempty]

/-- After an answer of the registrar nothing is undone. -/
theorem compensated_keepBookkeeping_iff {registration : RegistrationResult}
    (hregistration : outside.registration = some registration)
    (h : records.insertOne (newRecord cfg outside name user method) = some records') :
    Compensated outside records (keepBookkeeping outside faults registration outside.newId records') ↔
      ((edgeOps registration).isEmpty = false → faults.metadata = none) ∧ faults.reload = false := by
  have hnew : records.lookup outside.newId = none := (exists_of_insertOne h).1
  have hinserted : records'.lookup outside.newId = some (newRecord cfg outside name user method) :=
    (exists_of_insertOne h).2.1
  have hwritten : (records'.updateOne outside.newId (fun _ => true)
      ((edgeOps registration).update outside.later)).lookup outside.newId =
        some (((edgeOps registration).update outside.later).apply
          (newRecord cfg outside name user method)) := by
    rw [lookup_updateOne_self, hinserted, Option.map_some, applyWhere_of_matches _ rfl]
  rw [keepBookkeeping_eq]
  cases hempty : (edgeOps registration).isEmpty with
  | true =>
    obtain ⟨hbackend, hinstructions⟩ := of_isEmpty_edgeOps hempty
    rw [if_pos rfl, compensated_reloaded_iff hregistration hnew hinserted hbackend.symm hinstructions.symm]
    simp
  | false =>
    rw [if_neg Bool.false_ne_true]
    cases hfault : faults.metadata with
    | none =>
      have hbackend : (((edgeOps registration).update outside.later).apply
          (newRecord cfg outside name user method)).cfHostnameId = registration.backendId := by
        simp [EdgeOps.update, edgeOps, newRecord]
      have hinstructions : (((edgeOps registration).update outside.later).apply
          (newRecord cfg outside name user method)).dnsInstructions = registration.instructions := by
        by_cases hnone : registration.instructions = [] <;> simp [EdgeOps.update, edgeOps, newRecord, hnone]
      simpa using compensated_reloaded_iff hregistration hnew hwritten hbackend hinstructions
    | some fault =>
      cases fault with
      | before => simp [Compensated, ne_of_lookup hnew hinserted]
      | after => simp [Compensated, ne_of_lookup hnew hwritten]

/-- Once the document is in, no access fails but the compensating delete. -/
def Uninterrupted (cfg : DomainConfig) (outside : RegistrationOutside) (faults : RegistrationFaults)
    (fqdn : String) (user : ObjectId) (records : RecordStore) : Prop :=
  ∀ name, Admitted cfg outside faults fqdn user records name → faults.insert ≠ some .after ∧
    (faults.insert = none → ∀ registration, outside.registration = some registration →
      ((edgeOps registration).isEmpty = false → faults.metadata = none) ∧ faults.reload = false)

/-- Where no document goes in there is nothing to undo. -/
theorem uninterrupted_of_not_admitted
    (h : ∀ name, ¬Admitted cfg outside faults fqdn user records name) :
    Uninterrupted cfg outside faults fqdn user records := fun name hname => absurd hname (h name)

theorem uninterrupted_iff (h : Admitted cfg outside faults fqdn user records name) :
    Uninterrupted cfg outside faults fqdn user records ↔ faults.insert ≠ some .after ∧
      (faults.insert = none → ∀ registration, outside.registration = some registration →
        ((edgeOps registration).isEmpty = false → faults.metadata = none) ∧ faults.reload = false) :=
  ⟨fun hall => hall name h, fun hcovered _ _ => hcovered⟩

/-- Whatever fails of a registration, a call that raises leaves nothing of it, unless the compensating
delete has failed, and one that answers has stored what the registrar gave, exactly if no access fails
after the document went in: not the insert itself, and once the registrar has answered neither the
write of its bookkeeping nor the last read. -/
theorem registration_compensated_iff (cfg : DomainConfig) (outside : RegistrationOutside)
    (faults : RegistrationFaults) (fqdn : String) (user : ObjectId) (records : RecordStore) :
    Compensated outside records (create cfg outside faults fqdn user records) ↔
      Uninterrupted cfg outside faults fqdn user records := by
  unfold create
  cases hscreen : screen cfg outside faults fqdn user records.domains with
  | error error =>
    refine iff_of_true (fun _ => rfl) (uninterrupted_of_not_admitted fun name hname => ?_)
    rw [hname.screen_eq] at hscreen
    cases hscreen
  | ok checked =>
    obtain ⟨name, method⟩ := checked
    cases hinsert : records.insertOne (newRecord cfg outside name user method) with
    | none =>
      have hrefused : ∀ other, ¬Admitted cfg outside faults fqdn user records other := by
        intro other hother
        have hsame := hother.screen_eq.symm.trans hscreen
        obtain ⟨rfl, -⟩ := Prod.mk.inj (Except.ok.inj hsame)
        have haccepted := (admitted_iff hscreen).1 hother
        rw [hinsert] at haccepted
        cases haccepted
      refine iff_of_true ?_ (uninterrupted_of_not_admitted hrefused)
      cases hfault : faults.insert with
      | none => simp [Compensated, insertRecord, hinsert]
      | some fault => cases fault <;> simp [Compensated, insertRecord, hinsert]
    | some records' =>
      have hadmitted : Admitted cfg outside faults fqdn user records name :=
        (admitted_iff hscreen).2 (by rw [hinsert]; rfl)
      rw [uninterrupted_iff hadmitted]
      cases hfault : faults.insert with
      | none =>
        cases hregistration : outside.registration with
        | none =>
          have hundone : Compensated outside records (rollBack faults outside.newId records') :=
            compensated_rollBack hinsert
          simpa [insertRecord, hinsert] using hundone
        | some registration =>
          simpa [insertRecord, hinsert] using compensated_keepBookkeeping_iff hregistration hinsert
      | some fault =>
        cases fault with
        | before => simp [Compensated]
        | after =>
          have hstored : records'.lookup outside.newId = some (newRecord cfg outside name user method) :=
            (exists_of_insertOne hinsert).2.1
          have hleft : records' ≠ records := ne_of_lookup (exists_of_insertOne hinsert).1 hstored
          simp [Compensated, insertRecord, hinsert, hleft]

/-- A deployment at Cloudflare, with one domain a user. -/
def cloudflareDomains : DomainConfig where
  lib := asciiUrlLib
  verifiers := [.cfHttpDcv]

/-- A registrar that answers with a hostname of its own. -/
def registeredHostname : RegistrationOutside where
  newId := 1
  token := "token"
  now := 0
  later := 1
  registration := some { backendId := some "hostname" }

/-- The registrar answers and the write of its bookkeeping fails: the call raises, no delete has failed,
and the next registration of the name is refused for the document that is left. -/
theorem bookkeeping_failure_blocks_name :
    let run := create cloudflareDomains registeredHostname { metadata := some .before } "go.example" 1 .empty
    run.error? = some .repository ∧ run.rollbackFailed = false ∧
      ¬Compensated registeredHostname .empty run ∧
      (create cloudflareDomains { registeredHostname with newId := 2 } {} "go.example" 1 run.records).error?
        = some .alreadyRegistered := by
  refine ⟨by decide +kernel, by decide +kernel, fun h => ?_, by decide +kernel⟩
  have hleft := h.records_eq (by decide +kernel) (by decide +kernel)
  exact absurd (congrArg (fun records : RecordStore => records.docs.length) hleft) (by decide +kernel)

end Spoo
