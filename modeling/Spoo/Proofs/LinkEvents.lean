import Spoo.Proofs.OwnerRaces
import Spoo.Services.Webhooks.Payloads

/-!
# The events of updates

A censored document or request has no password, and no address of a client. What an update decides on is decided on the
censored ones all the same. What a `link.updated` event tells of a link are the snapshot, which has public fields only,
and the changes, which are keyed by the fields that the update wrote. Three of these are no fields of the snapshot; an
update writes none of them just when its request changes no destination and not `private_stats`. Neither part has more
of a password than whether there is one, and neither has any of a client's addresses.
-/

namespace Spoo

open Fallible

/-! ## Updates without their secrets -/

/-- Without the address that wrote them. -/
def LinkMetaTags.censored (tags : LinkMetaTags) : LinkMetaTags := { tags with updatedIp := none }

/-- Without the password, and without the address that wrote the meta-tags. -/
def UrlV2Doc.censored (doc : UrlV2Doc) : UrlV2Doc :=
  { doc with password := none, metaTags := doc.metaTags.map LinkMetaTags.censored }

/-- Without the password, and without any address. -/
def UrlRow.censored (row : UrlRow) : UrlRow :=
  { row with
    password := none
    creationIp := none
    metaTags := row.metaTags.map LinkMetaTags.censored }

def UpdateUrlRequest.censored (request : UpdateUrlRequest) : UpdateUrlRequest :=
  { request with password := none }

def UrlOps.censored (ops : UrlOps) : UrlOps :=
  { ops with password := none, metaTags := ops.metaTags.map (·.map LinkMetaTags.censored) }

theorem UrlV2Doc.censored_fromMongo (row : UrlRow) :
    (UrlV2Doc.fromMongo row).censored = .fromMongo row.censored := rfl

/-! ## The handlers -/

section

variable {α : Type} {seen : UrlOps → UrlOps}

@[simp] theorem map_ok (ops : UrlOps) :
    (Except.ok ops : Except AppError UrlOps).map seen = .ok (seen ops) := rfl

@[simp] theorem map_error (e : AppError) : (Except.error e : Except AppError UrlOps).map seen = .error e := rfl

@[simp] theorem map_validationError (message field : String) :
    (validationError message field : Except AppError UrlOps).map seen = validationError message field := rfl

@[simp] theorem map_bind (x : Except AppError α) (f : α → Except AppError UrlOps) :
    (x >>= f).map seen = x >>= fun a => (f a).map seen := by
  cases x <;> rfl

@[simp] theorem map_ite (p : Prop) [Decidable p] (x y : Except AppError UrlOps) :
    (if p then x else y).map seen = if p then x.map seen else y.map seen := apply_ite _ _ _ _

end

section

variable {env : UpdateEnv} {now : Int} {request : UpdateUrlRequest} {existing : UrlV2Doc} {ops : UrlOps}

theorem handleLongUrl_censored : (handleLongUrl env now request existing ops).map UrlOps.censored =
    handleLongUrl env now request.censored existing.censored ops.censored := by
  unfold handleLongUrl
  dsimp only [UpdateUrlRequest.censored, UrlV2Doc.censored]
  cases request.longUrl with
  | none => rfl
  | some requested =>
    simp only [map_ite, map_bind, map_ok]
    rfl

theorem handleAlias_censored : (handleAlias env now request existing ops).map UrlOps.censored =
    handleAlias env now request.censored existing.censored ops.censored := by
  unfold handleAlias
  dsimp only [UpdateUrlRequest.censored, UrlV2Doc.censored]
  cases request.linkAlias with
  | none => rfl
  | some requested =>
    simp only [map_ite, map_bind, map_ok, map_error, map_validationError]
    rfl

theorem handleDomain_censored : (handleDomain env now request existing ops).map UrlOps.censored =
    handleDomain env now request.censored existing.censored ops.censored := by
  unfold handleDomain
  dsimp only [UpdateUrlRequest.censored, UrlV2Doc.censored]
  cases request.domain with
  | none => rfl
  | some requested =>
    simp only [map_ite, map_ok, map_error, map_validationError]
    rfl

theorem handlePassword_censored : (handlePassword env now request existing ops).map UrlOps.censored =
    handlePassword env now request.censored existing.censored ops.censored := by
  unfold handlePassword
  dsimp only [UpdateUrlRequest.censored, UrlV2Doc.censored]
  -- The password is all that it writes.
  repeat' split
  all_goals rfl

theorem handleMaxClicks_censored : (handleMaxClicks env now request existing ops).map UrlOps.censored =
    handleMaxClicks env now request.censored existing.censored ops.censored := by
  unfold handleMaxClicks
  dsimp only [UpdateUrlRequest.censored, UrlV2Doc.censored]
  cases request.maxClicks with
  | none => rfl
  | some requested =>
    simp only [map_ite, map_ok]
    rfl

theorem handleExpireAfter_censored : (handleExpireAfter env now request existing ops).map UrlOps.censored =
    handleExpireAfter env now request.censored existing.censored ops.censored := by
  unfold handleExpireAfter
  dsimp only [UpdateUrlRequest.censored, UrlV2Doc.censored]
  rcases request.expireAfter with _ | _ | requested
  · rfl
  · rw [map_ite]
    rfl
  · simp only [map_ite, map_ok, map_validationError]
    rfl

theorem handleStartsAt_censored : (handleStartsAt env now request existing ops).map UrlOps.censored =
    handleStartsAt env now request.censored existing.censored ops.censored := by
  unfold handleStartsAt
  dsimp only [UpdateUrlRequest.censored, UrlV2Doc.censored]
  rcases request.startsAt with _ | _ | requested
  · rfl
  · rw [map_ite]
    rfl
  · simp only [map_ite, map_ok, map_validationError]
    rfl

theorem handlePreStartUrl_censored : (handlePreStartUrl env now request existing ops).map UrlOps.censored =
    handlePreStartUrl env now request.censored existing.censored ops.censored := by
  unfold handlePreStartUrl
  dsimp only [UpdateUrlRequest.censored, UrlV2Doc.censored]
  cases request.preStartUrl with
  | none => rfl
  | some requested =>
    rw [map_bind]
    refine bind_congr fun value => ?_
    cases value <;> rfl

theorem handleBlockBots_censored : (handleBlockBots env now request existing ops).map UrlOps.censored =
    handleBlockBots env now request.censored existing.censored ops.censored := by
  unfold handleBlockBots
  dsimp only [UpdateUrlRequest.censored, UrlV2Doc.censored]
  split <;> rfl

theorem handlePrivateStats_censored : (handlePrivateStats env now request existing ops).map UrlOps.censored =
    handlePrivateStats env now request.censored existing.censored ops.censored := by
  unfold handlePrivateStats
  dsimp only [UpdateUrlRequest.censored, UrlV2Doc.censored]
  split <;> rfl

theorem handleStatus_censored : (handleStatus env now request existing ops).map UrlOps.censored =
    handleStatus env now request.censored existing.censored ops.censored := by
  unfold handleStatus
  dsimp only [UpdateUrlRequest.censored, UrlV2Doc.censored]
  cases request.status with
  | none => rfl
  | some requested =>
    simp only [map_ite, map_ok]
    rfl

theorem handleGeoRules_censored : (handleGeoRules env now request existing ops).map UrlOps.censored =
    handleGeoRules env now request.censored existing.censored ops.censored := by
  unfold handleGeoRules
  dsimp only [UpdateUrlRequest.censored, UrlV2Doc.censored]
  cases request.geoRules with
  | none => rfl
  | some requested =>
    simp only [map_ite, map_bind, map_ok]
    rfl

theorem handleTagIds_censored : (handleTagIds env now request existing ops).map UrlOps.censored =
    handleTagIds env now request.censored existing.censored ops.censored := by
  unfold handleTagIds
  dsimp only [UpdateUrlRequest.censored, UrlV2Doc.censored]
  cases request.tagIds with
  | none => rfl
  | some requested =>
    simp only [map_ite, map_bind, map_ok]
    rfl

theorem handleAbVariants_censored : (handleAbVariants env now request existing ops).map UrlOps.censored =
    handleAbVariants env now request.censored existing.censored ops.censored := by
  unfold handleAbVariants
  dsimp only [UpdateUrlRequest.censored, UrlV2Doc.censored]
  cases request.abVariants with
  | none => rfl
  | some requested =>
    simp only [map_ite, map_bind, map_ok]
    rfl

theorem handleExpiredRedirectUrl_censored :
    (handleExpiredRedirectUrl env now request existing ops).map UrlOps.censored =
    handleExpiredRedirectUrl env now request.censored existing.censored ops.censored := by
  unfold handleExpiredRedirectUrl
  dsimp only [UpdateUrlRequest.censored, UrlV2Doc.censored]
  cases request.expiredRedirectUrl with
  | none => rfl
  | some requested =>
    rw [map_bind]
    refine bind_congr fun value => ?_
    cases value <;> rfl

theorem handleMetaTags_censored : (handleMetaTags env now request existing ops).map UrlOps.censored =
    handleMetaTags env now request.censored existing.censored ops.censored := by
  unfold handleMetaTags
  dsimp only [UpdateUrlRequest.censored, UrlV2Doc.censored]
  rcases request.metaTags with _ | _ | requested
  · rfl
  · simp only [Option.isSome_map, map_ite, map_ok]
    rfl
  · simp only [map_bind, map_ok]
    rfl

theorem handler_censored {handler : Handler} (hmem : handler ∈ fieldHandlers) :
    (handler env now request existing ops).map UrlOps.censored =
      handler env now request.censored existing.censored ops.censored := by
  simp only [fieldHandlers, List.mem_cons, List.not_mem_nil, or_false] at hmem
  rcases hmem with rfl | rfl | rfl | rfl | rfl | rfl | rfl | rfl | rfl | rfl | rfl | rfl | rfl |
    rfl | rfl | rfl
  · exact handleLongUrl_censored
  · exact handleAlias_censored
  · exact handleDomain_censored
  · exact handlePassword_censored
  · exact handleMaxClicks_censored
  · exact handleExpireAfter_censored
  · exact handleStartsAt_censored
  · exact handlePreStartUrl_censored
  · exact handleBlockBots_censored
  · exact handlePrivateStats_censored
  · exact handleStatus_censored
  · exact handleGeoRules_censored
  · exact handleTagIds_censored
  · exact handleAbVariants_censored
  · exact handleExpiredRedirectUrl_censored
  · exact handleMetaTags_censored

/-! ## The operations -/

namespace UrlOps

theorem censored_restamp (lib : UrlLib) :
    (ops.restamp lib existing).censored = ops.censored.restamp lib existing.censored := by
  unfold restamp
  rw [apply_ite censored]
  rfl

theorem censored_stampMetaIp (clientIp : Option String) :
    (ops.stampMetaIp clientIp).censored = ops.censored := by
  rcases hmeta : ops.metaTags with _ | _ | tags
  · simp only [stampMetaIp, hmeta]
  · simp only [stampMetaIp, hmeta]
  · simp only [stampMetaIp, hmeta, censored, Option.map_some, LinkMetaTags.censored]

theorem censored_autoReactivate :
    (ops.autoReactivate existing now).censored = ops.censored.autoReactivate existing.censored now := by
  unfold autoReactivate
  rw [apply_ite censored]
  rfl

end UrlOps

/-- The censored operations are those of the handlers' censored run. -/
theorem censored_buildOps {clientIp : Option String}
    (h : buildOps env now request clientIp existing = .ok ops) :
    ∃ collected, fieldHandlers.foldlM
        (fun ops handler => handler env now request.censored existing.censored ops) ({} : UrlOps) = .ok collected ∧
      ops.censored = (collected.restamp env.lib existing.censored).autoReactivate existing.censored now := by
  obtain ⟨collected, hcollect, rfl⟩ := buildOps_collected h
  have hfold : (fieldHandlers.foldlM (fun ops (handler : Handler) => handler env now request existing ops)
      ({} : UrlOps)).map UrlOps.censored = fieldHandlers.foldlM
        (fun ops (handler : Handler) => handler env now request.censored existing.censored ops)
        (UrlOps.censored {}) :=
    foldlM_map (fun _ hmem _ => handler_censored hmem) _
  rw [hcollect] at hfold
  refine ⟨collected.censored, hfold.symm, ?_⟩
  rw [UrlOps.censored_autoReactivate, UrlOps.censored_stampMetaIp, UrlOps.censored_restamp]

/-- Runs that differ in nothing but secrets decide on operations that differ in nothing else. -/
theorem buildOps_eq_of_censored {request' : UpdateUrlRequest} {existing' : UrlV2Doc} {ops' : UrlOps}
    {clientIp clientIp' : Option String} (hrequest : request.censored = request'.censored)
    (hexisting : existing.censored = existing'.censored)
    (h : buildOps env now request clientIp existing = .ok ops)
    (h' : buildOps env now request' clientIp' existing' = .ok ops') : ops.censored = ops'.censored := by
  obtain ⟨collected, hcollect, hops⟩ := censored_buildOps h
  obtain ⟨collected', hcollect', hops'⟩ := censored_buildOps h'
  rw [hrequest, hexisting, hcollect'] at hcollect
  cases hcollect
  rw [hops, hops', hexisting]

theorem UrlOps.censored_merge : (ops.merge existing).censored = ops.censored.merge existing.censored := by
  unfold merge UrlV2Doc.censored censored
  cases ops.metaTags <;> cases ops.password <;> rfl

end

/-! ## The run of an update -/

open Interleave UrlService
open ClickStream (dumpOption)

variable {isoformat : Datetime → String} {createdAt : Datetime}

section

variable {env : UpdateEnv} {edge : EdgeConfig} {urlId ownerId : ObjectId} {request : UpdateUrlRequest}
  {clientIp : Option String} {now : Int} {s : Stores}

/-- A successful update has left the link alone, or written the operations that it built. -/
theorem updateCalls_vars {doc : UrlV2Doc}
    (h : (runActions (updateCalls env edge urlId request ownerId clientIp now) {} s).1.outcome =
      some (.ok doc)) :
    ∃ row ops, s.urls.lookup urlId = some row ∧ buildOps env now request clientIp (.fromMongo row) = .ok ops ∧
      (runActions (updateCalls env edge urlId request ownerId clientIp now) {} s).1 =
        if ops = {} then { outcome := some (.ok (.fromMongo row)) }
        else toWrite (.fromMongo row) { ops with updatedAt := some now } := by
  have hvars : (runActions (updateCalls env edge urlId request ownerId clientIp now) {} s).1 =
      (writeUpdate urlId (readForUpdate env urlId request ownerId clientIp now {} s).1 s).1 := by
    simp only [updateCalls, runActions_cons, runActions_nil, vars_reconcileEdge, vars_invalidateKeys,
      readForUpdate_stores]
  rw [hvars] at h ⊢
  cases hload : loadOwned (UrlRepository.findById s.urls urlId) ownerId "Cannot modify a blocked URL" with
  | error e =>
    simp [readForUpdate, hload, bind, Except.bind, writeUpdate] at h
  | ok existing =>
    obtain ⟨row, hrow, rfl, -, -⟩ := loadOwned_ok hload
    cases hbuild : buildOps env now request clientIp (.fromMongo row) with
    | error e =>
      simp [readForUpdate, hload, hbuild, bind, Except.bind, writeUpdate] at h
    | ok ops =>
      refine ⟨row, ops, hrow, hbuild, ?_⟩
      by_cases hops : ops = {}
      · simp [readForUpdate, hload, hbuild, bind, Except.bind, writeUpdate, hops]
      · cases hwrite : UrlRepository.update s.urls urlId
            ({ ops with updatedAt := some now } : UrlOps).toUpdate with
        | none =>
          simp [readForUpdate, hload, hbuild, bind, Except.bind, writeUpdate, hops, toWrite, hwrite] at h
        | some urls =>
          simp [readForUpdate, hload, hbuild, bind, Except.bind, writeUpdate, hops, toWrite, hwrite]

end

/-! ## Names -/

/-- The fields of the snapshot. -/
def snapshotFields : List String :=
  ["link_id", "alias", "domain", "short_url", "long_url", "status", "password_protected", "block_bots",
    "max_clicks", "expires_at", "starts_at", "pre_start_url", "geo_rules", "tag_ids", "ab_variants", "meta_tags",
    "total_clicks", "created_at"]

theorem nodup_snapshotFields : snapshotFields.Nodup := by decide

theorem entries_linkSnapshot (doc : UrlV2Doc) :
    (linkSnapshot isoformat createdAt doc).entries = snapshotItems isoformat createdAt doc := by
  refine PyDict.entries_ofList ?_
  exact nodup_snapshotFields

theorem keys_linkSnapshot (doc : UrlV2Doc) : (linkSnapshot isoformat createdAt doc).keys = snapshotFields :=
  congrArg (List.map Prod.fst) (entries_linkSnapshot doc)

/-- The key of a field among the changes. -/
def publicKey (name : String) : String :=
  if name = "password" then "password_protected" else changeKeyPublic name

theorem fst_changeOf (existing : UrlV2Doc) (dest : Option UrlDestination) (item : String × FieldValue) :
    (changeOf isoformat existing dest item).map Prod.fst =
      if item.1 = "updated_at" then none else some (publicKey item.1) := by
  unfold changeOf publicKey
  split
  · rfl
  · split <;> rfl

/-- The changes are keyed by the fields that the operations hold. -/
theorem mem_keys_eventChanges {existing : UrlV2Doc} {dest : Option UrlDestination} {ops : UrlOps}
    {key : String} :
    key ∈ (eventChanges isoformat existing dest ops).keys ↔
      ∃ field ∈ ops.fields, field.2.isSome = true ∧ field.1 ≠ "updated_at" ∧ publicKey field.1 = key := by
  rw [eventChanges, PyDict.mem_keys_ofList, List.map_filterMap, UrlOps.items]
  simp only [fst_changeOf, List.mem_filterMap, Option.map_eq_some_iff]
  constructor
  · rintro ⟨item, ⟨field, hfield, value, hvalue, rfl⟩, hkey⟩
    dsimp only at hkey
    split at hkey
    · cases hkey
    · rename_i hname
      exact ⟨field, hfield, by rw [hvalue]; rfl, hname, Option.some.inj hkey⟩
  · rintro ⟨field, hfield, hsome, hname, rfl⟩
    obtain ⟨value, hvalue⟩ := Option.isSome_iff_exists.1 hsome
    exact ⟨(field.1, value), ⟨field, hfield, value, hvalue, rfl⟩, if_neg hname⟩

/-- Of what an update may write, three fields are none of the snapshot. -/
theorem keys_eventChanges_public_iff {existing : UrlV2Doc} {dest : Option UrlDestination} {ops : UrlOps} :
    (∀ key ∈ (eventChanges isoformat existing dest ops).keys, key ∈ snapshotFields) ↔
      ops.privateStats = none ∧ ops.expiredRedirectUrl = none ∧ ops.dest = none := by
  have hkeys : (∀ key ∈ (eventChanges isoformat existing dest ops).keys, key ∈ snapshotFields) ↔
      ∀ field ∈ ops.fields, field.2.isSome = true → field.1 ≠ "updated_at" →
        publicKey field.1 ∈ snapshotFields := by
    simp only [mem_keys_eventChanges]
    exact ⟨fun h field hfield hsome hname => h _ ⟨field, hfield, hsome, hname, rfl⟩,
      fun h key ⟨field, hfield, hsome, hname, hkey⟩ => hkey ▸ h field hfield hsome hname⟩
  rw [hkeys]
  simp [UrlOps.fields, publicKey, changeKeyPublic, snapshotFields]

/-! ## Secrets -/

theorem publicMetaTags_censored (tags : Option LinkMetaTags) :
    dumpOption publicMetaTags (tags.map LinkMetaTags.censored) = dumpOption publicMetaTags tags := by
  cases tags <;> rfl

/-- But for the presence of a password, the snapshot is the one of the censored document. -/
theorem pop_linkSnapshot (doc : UrlV2Doc) : (linkSnapshot isoformat createdAt doc).pop "password_protected" =
    (linkSnapshot isoformat createdAt doc.censored).pop "password_protected" := by
  refine PyDict.eq_of_entries ?_
  rw [PyDict.entries_pop, PyDict.entries_pop, entries_linkSnapshot, entries_linkSnapshot]
  simp [snapshotItems, UrlV2Doc.censored, publicMetaTags_censored]

theorem nodup_changes (existing : UrlV2Doc) (dest : Option UrlDestination) (ops : UrlOps) :
    ((ops.items.filterMap (changeOf isoformat existing dest)).map Prod.fst).Nodup := by
  have hkey (field : String × Option FieldValue) (key : String)
      (h : ((field.2.map (field.1, ·)).bind fun item =>
        (changeOf isoformat existing dest item).map Prod.fst) = some key) : key = publicKey field.1 := by
    obtain ⟨item, hitem, h⟩ := Option.bind_eq_some_iff.1 h
    obtain ⟨value, -, rfl⟩ := Option.map_eq_some_iff.1 hitem
    rw [fst_changeOf] at h
    split at h
    · cases h
    · exact (Option.some.inj h).symm
  have hnames : (ops.fields.map fun field => publicKey field.1).Nodup := by
    show List.Nodup ["long_url", "alias", "domain", "password_protected", "max_clicks", "expires_at", "starts_at",
      "pre_start_url", "block_bots", "private_stats", "status", "geo_rules", "tag_ids", "ab_variants",
      "expired_redirect_url", "meta_tags", "dest", "updated_at"]
    decide
  rw [UrlOps.items, List.map_filterMap, List.filterMap_filterMap]
  exact hnames.sublist (PyList.filterMap_sublist_map hkey)

/-- The entry of a field among the changes, where it is not the one of the password. -/
def publicChange (isoformat : Datetime → String) (existing : UrlV2Doc) (dest : Option UrlDestination)
    (field : String × Option FieldValue) : Option (String × Change) :=
  ((field.2.map (field.1, ·)).bind (changeOf isoformat existing dest)).filter fun e =>
    e.1 ≠ "password_protected"

theorem entries_pop_eventChanges (existing : UrlV2Doc) (dest : Option UrlDestination) (ops : UrlOps) :
    ((eventChanges isoformat existing dest ops).pop "password_protected").entries =
      ops.fields.filterMap (publicChange isoformat existing dest) := by
  rw [PyDict.entries_pop, eventChanges, PyDict.entries_ofList (nodup_changes existing dest ops), UrlOps.items,
    List.filterMap_filterMap, List.filter_filterMap]
  rfl

/-- A field that is no secret, with values that look the same, has the same entry. -/
theorem publicChange_congr {existing existing' : UrlV2Doc} {dest : Option UrlDestination} {name : String}
    {value value' : Option FieldValue} (hname : name ≠ "password")
    (hold : eventChangeValue isoformat (existing.getattr dest name) =
      eventChangeValue isoformat (existing'.getattr dest name))
    (hnew : value.map (eventChangeValue isoformat) = value'.map (eventChangeValue isoformat)) :
    publicChange isoformat existing dest (name, value) =
      publicChange isoformat existing' dest (name, value') := by
  cases value with
  | none =>
    rw [Option.map_none, eq_comm, Option.map_eq_none_iff] at hnew
    rw [hnew]
    rfl
  | some value =>
    obtain ⟨value', rfl, hvalue⟩ := Option.map_eq_some_iff.1 hnew.symm
    simp only [publicChange, changeOf, Option.map_some, Option.bind_some, if_neg hname, hold, hvalue]

/-- The operations hold no secret but the password and an address with the meta-tags. -/
theorem pop_eventChanges (existing : UrlV2Doc) (dest : Option UrlDestination) (ops : UrlOps) :
    (eventChanges isoformat existing dest ops).pop "password_protected" =
      (eventChanges isoformat existing.censored dest ops.censored).pop "password_protected" := by
  have hpassword (existing : UrlV2Doc) (value : Option FieldValue) :
      publicChange isoformat existing dest ("password", value) = none := by
    cases value <;> rfl
  have hold : eventChangeValue isoformat (existing.getattr dest "meta_tags") =
      eventChangeValue isoformat (existing.censored.getattr dest "meta_tags") := by
    show eventChangeValue isoformat (.ofOption .metaTags existing.metaTags) =
      eventChangeValue isoformat (.ofOption .metaTags (existing.metaTags.map LinkMetaTags.censored))
    cases existing.metaTags <;> rfl
  have hnew : (ops.metaTags.map (.ofOption .metaTags)).map (eventChangeValue isoformat) =
      (ops.censored.metaTags.map (.ofOption .metaTags)).map (eventChangeValue isoformat) := by
    show _ = ((ops.metaTags.map (·.map LinkMetaTags.censored)).map (.ofOption .metaTags)).map
      (eventChangeValue isoformat)
    rcases ops.metaTags with _ | _ | tags <;> rfl
  refine PyDict.eq_of_entries ?_
  rw [entries_pop_eventChanges, entries_pop_eventChanges]
  refine PyList.filterMap_eq_of_forall₂ ?_
  unfold UrlOps.fields
  repeat' first | exact List.Forall₂.nil | refine List.Forall₂.cons ?_ ?_
  all_goals first
    | exact publicChange_congr (by decide) rfl rfl
    | exact publicChange_congr (by decide) hold hnew
    | exact (hpassword _ _).trans (hpassword _ _).symm

/-! ## Requests that change no hidden field -/

/-- An optional destination stays as it is. -/
def KeepsUrl (requested : Option (Option String)) (current : Option String) : Prop :=
  ∀ url ∈ requested, if url.getD "" = "" then current.getD "" = "" else url = current

/-- The request leaves the destinations and `private_stats` as they are. -/
structure KeepsHidden (request : UpdateUrlRequest) (existing : UrlV2Doc) : Prop where
  longUrl : ∀ url ∈ request.longUrl, url = existing.longUrl
  geoRules : ∀ rules ∈ request.geoRules,
    if (rules.getD .empty).entries = [] then (existing.geoRules.getD .empty).entries = []
    else existing.geoRules.any (rules.getD .empty).sameItems = true
  abVariants : ∀ variants ∈ request.abVariants,
    if variants.getD [] = [] then existing.abVariants.getD [] = []
    else existing.abVariants = some (variants.getD [])
  preStartUrl : KeepsUrl request.preStartUrl existing.preStartUrl
  expiredRedirectUrl : KeepsUrl request.expiredRedirectUrl existing.expiredRedirectUrl
  privateStats : ∀ value ∈ request.privateStats, value = existing.privateStats

section

variable {env : UpdateEnv} {now : Int} {request : UpdateUrlRequest} {existing : UrlV2Doc} {ops ops' : UrlOps}

theorem handleLongUrl_keeps_iff (h : handleLongUrl env now request existing ops = .ok ops')
    (hnew : ops.longUrl = none) : ops'.longUrl = none ↔ ∀ url ∈ request.longUrl, url = existing.longUrl := by
  unfold handleLongUrl at h
  cases hrequest : request.longUrl with
  | none =>
    rw [hrequest] at h
    cases h
    simp [hnew]
  | some url =>
    rw [hrequest] at h
    dsimp only at h
    split at h
    · rename_i hne
      obtain ⟨_, -, h⟩ := bind_eq_ok.1 h
      cases h
      simp [hne]
    · rename_i heq
      cases h
      simp [hnew, not_not.1 heq]

theorem handleGeoRules_keeps_iff (h : handleGeoRules env now request existing ops = .ok ops')
    (hnew : ops.geoRules = none) : ops'.geoRules = none ↔ ∀ rules ∈ request.geoRules,
      if (rules.getD .empty).entries = [] then (existing.geoRules.getD .empty).entries = []
      else existing.geoRules.any (rules.getD .empty).sameItems = true := by
  unfold handleGeoRules at h
  cases hrequest : request.geoRules with
  | none =>
    rw [hrequest] at h
    cases h
    simp [hnew]
  | some rules =>
    rw [hrequest] at h
    dsimp only at h
    simp only [Option.mem_some_iff, forall_eq']
    split at h
    · rename_i hempty
      rw [if_pos hempty]
      split at h <;> rename_i hcurrent <;> cases h
      · simp [hcurrent]
      · exact iff_of_true hnew (not_not.1 hcurrent)
    · rename_i hrules
      rw [if_neg hrules]
      split at h
      · rename_i hsame
        cases h
        exact iff_of_true hnew hsame
      · rename_i hdiffers
        obtain ⟨_, -, h⟩ := bind_eq_ok.1 h
        obtain ⟨_, -, h⟩ := bind_eq_ok.1 h
        cases h
        exact iff_of_false (Option.some_ne_none _) hdiffers

theorem handleAbVariants_keeps_iff (h : handleAbVariants env now request existing ops = .ok ops')
    (hnew : ops.abVariants = none) : ops'.abVariants = none ↔ ∀ variants ∈ request.abVariants,
      if variants.getD [] = [] then existing.abVariants.getD [] = []
      else existing.abVariants = some (variants.getD []) := by
  unfold handleAbVariants at h
  cases hrequest : request.abVariants with
  | none =>
    rw [hrequest] at h
    cases h
    simp [hnew]
  | some variants =>
    rw [hrequest] at h
    dsimp only at h
    simp only [Option.mem_some_iff, forall_eq']
    split at h
    · rename_i hempty
      rw [if_pos hempty]
      split at h <;> rename_i hcurrent <;> cases h
      · exact iff_of_false nofun hcurrent
      · exact iff_of_true hnew (not_not.1 hcurrent)
    · rename_i hvariants
      rw [if_neg hvariants]
      split at h
      · rename_i hsame
        cases h
        exact iff_of_true hnew hsame
      · rename_i hdiffers
        obtain ⟨_, -, h⟩ := bind_eq_ok.1 h
        obtain ⟨_, -, h⟩ := bind_eq_ok.1 h
        cases h
        exact iff_of_false (Option.some_ne_none _) hdiffers

/-- What an optional destination's handler has to write. -/
theorem optionalDestination_none_iff {field : String} {requested current : Option String}
    {value : Option (Option String)} (h : optionalDestination env field requested current = .ok value) :
    value = none ↔ if requested.getD "" = "" then current.getD "" = "" else requested = current := by
  unfold optionalDestination at h
  split at h
  · rename_i hempty
    rw [if_pos hempty]
    split at h <;> rename_i hcurrent <;> cases h
    · exact iff_of_false nofun hcurrent
    · exact iff_of_true rfl (not_not.1 hcurrent)
  · rename_i hurl
    rw [if_neg hurl]
    split at h
    · rename_i hsame
      cases h
      exact iff_of_true rfl hsame
    · rename_i hdiffers
      obtain ⟨_, -, h⟩ := bind_eq_ok.1 h
      cases h
      exact iff_of_false nofun hdiffers

theorem handlePreStartUrl_keeps_iff (h : handlePreStartUrl env now request existing ops = .ok ops')
    (hnew : ops.preStartUrl = none) :
    ops'.preStartUrl = none ↔ KeepsUrl request.preStartUrl existing.preStartUrl := by
  unfold handlePreStartUrl at h
  unfold KeepsUrl
  cases hrequest : request.preStartUrl with
  | none =>
    rw [hrequest] at h
    cases h
    simp [hnew]
  | some requested =>
    rw [hrequest] at h
    obtain ⟨value, hvalue, h⟩ := bind_eq_ok.1 h
    simp only [Option.mem_some_iff, forall_eq']
    rw [← optionalDestination_none_iff hvalue]
    cases value with
    | none =>
      cases h
      exact iff_of_true hnew rfl
    | some value =>
      cases h
      exact iff_of_false nofun nofun

theorem handleExpiredRedirectUrl_keeps_iff
    (h : handleExpiredRedirectUrl env now request existing ops = .ok ops') (hnew : ops.expiredRedirectUrl = none) :
    ops'.expiredRedirectUrl = none ↔ KeepsUrl request.expiredRedirectUrl existing.expiredRedirectUrl := by
  unfold handleExpiredRedirectUrl at h
  unfold KeepsUrl
  cases hrequest : request.expiredRedirectUrl with
  | none =>
    rw [hrequest] at h
    cases h
    simp [hnew]
  | some requested =>
    rw [hrequest] at h
    obtain ⟨value, hvalue, h⟩ := bind_eq_ok.1 h
    simp only [Option.mem_some_iff, forall_eq']
    rw [← optionalDestination_none_iff hvalue]
    cases value with
    | none =>
      cases h
      exact iff_of_true hnew rfl
    | some value =>
      cases h
      exact iff_of_false nofun nofun

theorem simpleField_none_iff {value current : Option Bool} :
    simpleField value current = none ↔ value = current := by
  rcases value with _ | value <;> rcases current with _ | current
  · decide
  · cases current <;> decide
  · cases value <;> decide
  · cases value <;> cases current <;> decide

theorem handlePrivateStats_keeps_iff (h : handlePrivateStats env now request existing ops = .ok ops')
    (hnew : ops.privateStats = none) :
    ops'.privateStats = none ↔ ∀ value ∈ request.privateStats, value = existing.privateStats := by
  unfold handlePrivateStats at h
  cases hrequest : request.privateStats with
  | none =>
    rw [hrequest] at h
    cases h
    simp [hnew]
  | some value =>
    rw [hrequest, Option.bind_some] at h
    simp only [Option.mem_some_iff, forall_eq']
    rw [← simpleField_none_iff]
    split at h
    · rename_i written hwritten
      cases h
      rw [hwritten]
    · rename_i hkept
      cases h
      exact iff_of_true hnew hkept

/-- The handlers collect none of the hidden fields just when the request keeps them. -/
theorem collected_keeps_iff
    (h : fieldHandlers.foldlM (fun ops (handler : Handler) => handler env now request existing ops)
      ({} : UrlOps) = .ok ops) :
    (ops.longUrl = none ∧ ops.geoRules = none ∧ ops.abVariants = none ∧ ops.preStartUrl = none ∧
      ops.expiredRedirectUrl = none ∧ ops.privateStats = none ↔ KeepsHidden request existing) ∧
        ops.dest = none := by
  simp only [fieldHandlers, List.foldlM_cons, List.foldlM_nil, bind_eq_ok] at h
  obtain ⟨_, hlong, _, halias, _, hdomain, _, hpassword, _, hclicks, _, hexpire, _, hstarts, _, hpre, _, hbots, _,
    hstats, _, hstatus, _, hgeo, _, htags, _, hab, _, hexpired, _, hmeta, h⟩ := h
  cases h
  have hlong' := handleLongUrl_keeps_iff hlong rfl
  obtain ⟨_, rfl⟩ := handleLongUrl_writes hlong
  obtain ⟨_, rfl, -⟩ := handleAlias_writes halias
  obtain ⟨_, rfl⟩ := handleDomain_writes hdomain
  obtain ⟨_, rfl⟩ := handlePassword_writes hpassword
  obtain ⟨_, rfl⟩ := handleMaxClicks_writes hclicks
  obtain ⟨_, rfl⟩ := handleExpireAfter_writes hexpire
  obtain ⟨_, rfl⟩ := handleStartsAt_writes hstarts
  have hpre' := handlePreStartUrl_keeps_iff hpre rfl
  obtain ⟨_, rfl⟩ := handlePreStartUrl_writes hpre
  obtain ⟨_, rfl⟩ := handleBlockBots_writes hbots
  have hstats' := handlePrivateStats_keeps_iff hstats rfl
  obtain ⟨_, rfl⟩ := handlePrivateStats_writes hstats
  obtain ⟨_, rfl⟩ := handleStatus_writes hstatus
  have hgeo' := handleGeoRules_keeps_iff hgeo rfl
  obtain ⟨_, rfl⟩ := handleGeoRules_writes hgeo
  obtain ⟨_, rfl⟩ := handleTagIds_writes htags
  have hab' := handleAbVariants_keeps_iff hab rfl
  obtain ⟨_, rfl⟩ := handleAbVariants_writes hab
  have hexpired' := handleExpiredRedirectUrl_keeps_iff hexpired rfl
  obtain ⟨_, rfl⟩ := handleExpiredRedirectUrl_writes hexpired
  obtain ⟨_, rfl⟩ := handleMetaTags_writes hmeta
  refine ⟨?_, rfl⟩
  constructor
  · rintro ⟨hl, hg, ha, hp, he, hs⟩
    exact ⟨hlong'.1 hl, hgeo'.1 hg, hab'.1 ha, hpre'.1 hp, hexpired'.1 he, hstats'.1 hs⟩
  · intro hkeeps
    exact ⟨hlong'.2 hkeeps.longUrl, hgeo'.2 hkeeps.geoRules, hab'.2 hkeeps.abVariants,
      hpre'.2 hkeeps.preStartUrl, hexpired'.2 hkeeps.expiredRedirectUrl, hstats'.2 hkeeps.privateStats⟩

/-- An update writes no hidden field just when its request keeps them: any new destination brings `dest`
along. -/
theorem buildOps_keeps_iff {clientIp : Option String}
    (h : buildOps env now request clientIp existing = .ok ops) :
    ops.privateStats = none ∧ ops.expiredRedirectUrl = none ∧ ops.dest = none ↔ KeepsHidden request existing := by
  obtain ⟨collected, hcollect, rfl⟩ := buildOps_collected h
  obtain ⟨hkeeps, hdest⟩ := collected_keeps_iff hcollect
  have hfinish :
      let finished := ((collected.restamp env.lib existing).stampMetaIp clientIp).autoReactivate existing now
      finished.dest = (collected.restamp env.lib existing).dest ∧
        finished.privateStats = collected.privateStats ∧
        finished.expiredRedirectUrl = collected.expiredRedirectUrl := by
    unfold UrlOps.autoReactivate UrlOps.stampMetaIp UrlOps.restamp
    repeat' split
    all_goals exact ⟨rfl, rfl, rfl⟩
  rw [hfinish.1, hfinish.2.1, hfinish.2.2, ← hkeeps]
  have hstamp : (collected.restamp env.lib existing).dest = none ↔ collected.changesDestination = false := by
    unfold UrlOps.restamp
    cases collected.changesDestination with
    | true => exact iff_of_false nofun nofun
    | false => exact iff_of_true hdest rfl
  rw [hstamp]
  simp only [UrlOps.changesDestination, Bool.or_eq_false_iff, Option.isSome_eq_false_iff,
    Option.isNone_iff_eq_none]
  constructor
  · rintro ⟨hs, -, ⟨⟨⟨hl, hg⟩, ha⟩, hp⟩, he⟩
    exact ⟨hl, hg, ha, hp, he, hs⟩
  · rintro ⟨hl, hg, ha, hp, he, hs⟩
    exact ⟨hs, he, ⟨⟨⟨hl, hg⟩, ha⟩, hp⟩, he⟩

end

/-! ## The event -/

theorem emitUpdated_unchanged (dest : Option UrlDestination) (doc : UrlV2Doc) :
    emitUpdated isoformat createdAt dest { outcome := some (.ok doc) } = none := rfl

theorem emitUpdated_toWrite (existing : UrlV2Doc) (dest : Option UrlDestination) (ops : UrlOps) :
    emitUpdated isoformat createdAt dest (toWrite existing ops) =
      if hasSubscriber (ops.merge existing) then
        some ⟨linkSnapshot isoformat createdAt (ops.merge existing), eventChanges isoformat existing dest ops⟩
      else none := rfl

theorem outcome_of_emitUpdated {dest : Option UrlDestination} {vars : OwnerVars} {event : LinkUpdated}
    (h : emitUpdated isoformat createdAt dest vars = some event) :
    ∃ merged, vars.outcome = some (.ok merged) := by
  unfold emitUpdated at h
  split at h
  · rename_i merged _ _ houtcome _
    exact ⟨merged, houtcome⟩
  · cases h

theorem hasSubscriber_merge (existing : UrlV2Doc) (ops : UrlOps) :
    hasSubscriber (ops.merge existing) = hasSubscriber existing := rfl

section

variable {env : UpdateEnv} {edge : EdgeConfig} {urlId ownerId : ObjectId} {request : UpdateUrlRequest}
  {clientIp : Option String} {now : Int} {s : Stores} {event : LinkUpdated}

/-- An update that succeeds tells its owner of the operations that were built, where there are any. -/
theorem updatedEvent_of_ok {doc : UrlV2Doc}
    (hok : (runActions (updateCalls env edge urlId request ownerId clientIp now) {} s).1.outcome =
      some (.ok doc)) :
    ∃ row ops, s.urls.lookup urlId = some row ∧ buildOps env now request clientIp (.fromMongo row) = .ok ops ∧
      updatedEvent isoformat env edge urlId request ownerId clientIp now createdAt s =
        if ops = {} then none
        else if hasSubscriber (.fromMongo row) then
          some ⟨linkSnapshot isoformat createdAt
              (({ ops with updatedAt := some now } : UrlOps).merge (.fromMongo row)),
            eventChanges isoformat (.fromMongo row) row.dest { ops with updatedAt := some now }⟩
        else none := by
  obtain ⟨row, ops, hrow, hbuild, hvars⟩ := updateCalls_vars hok
  refine ⟨row, ops, hrow, hbuild, ?_⟩
  unfold updatedEvent
  rw [hvars, hrow, Option.bind_some]
  split
  · exact emitUpdated_unchanged _ _
  · rw [emitUpdated_toWrite, hasSubscriber_merge]

/-- What an event tells. -/
theorem updatedEvent_spec
    (h : updatedEvent isoformat env edge urlId request ownerId clientIp now createdAt s = some event) :
    ∃ row ops, s.urls.lookup urlId = some row ∧ buildOps env now request clientIp (.fromMongo row) = .ok ops ∧
      hasSubscriber (.fromMongo row) = true ∧
      event.link = linkSnapshot isoformat createdAt
        (({ ops with updatedAt := some now } : UrlOps).merge (.fromMongo row)) ∧
      event.changes = eventChanges isoformat (.fromMongo row) row.dest { ops with updatedAt := some now } := by
  obtain ⟨merged, hok⟩ := outcome_of_emitUpdated h
  obtain ⟨row, ops, hrow, hbuild, hevent⟩ := updatedEvent_of_ok hok
  rw [hevent, Option.ite_none_left_eq_some] at h
  obtain ⟨hops, h⟩ := h
  obtain ⟨howner, h⟩ := Option.ite_none_right_eq_some.1 h
  rw [← Option.some.inj h]
  exact ⟨row, ops, hrow, hbuild, howner, rfl, rfl⟩


/-- The changes that are told: without an event there are none. -/
def changesOf (event : Option LinkUpdated) : PyDict String Change := event.elim .empty LinkUpdated.changes

/-- Another update of the link tells the same, but for the presence of a password. -/
structure TellsSame (event : LinkUpdated) (other : Option LinkUpdated) : Prop where
  link : ∀ event' ∈ other, event'.link.pop "password_protected" = event.link.pop "password_protected"
  changes : (changesOf other).pop "password_protected" = event.changes.pop "password_protected"

/-- Of a password, the event has whether there is one. -/
structure TellsPresence (event : LinkUpdated) : Prop where
  link : ∃ isProtected, event.link.get? "password_protected" = some (.bool isProtected)
  changes : ∀ change ∈ event.changes.get? "password_protected", ∃ old new, change = ⟨.bool old, .bool new⟩

variable (isoformat createdAt env edge urlId request ownerId now s event) in
/-- An update that succeeds on the same link with the same request, but for passwords and addresses, tells the
same. -/
def HidesSecrets : Prop :=
  ∀ (s' : Stores) (request' : UpdateUrlRequest) (clientIp' : Option String) (doc' : UrlV2Doc),
    (s'.urls.lookup urlId).map UrlRow.censored = (s.urls.lookup urlId).map UrlRow.censored →
    request'.censored = request.censored →
    (update env edge urlId request' ownerId clientIp' now s').1 = some (.ok doc') →
    TellsSame event (updatedEvent isoformat env edge urlId request' ownerId clientIp' now createdAt s')

theorem changes_of_no_ops {existing : UrlV2Doc} {dest : Option UrlDestination} :
    eventChanges isoformat existing dest ({ updatedAt := some now } : UrlOps) = .empty := rfl

/-- Updates of one link that differ in nothing but secrets tell the same. -/
theorem hidesSecrets
    (h : updatedEvent isoformat env edge urlId request ownerId clientIp now createdAt s = some event) :
    HidesSecrets isoformat createdAt env edge urlId ownerId request now s event := by
  intro s' request' clientIp' doc' hlink hrequest hok
  obtain ⟨row, ops, hrow, hbuild, howner, hsnapshot, hchanges⟩ := updatedEvent_spec h
  obtain ⟨row', ops', hrow', hbuild', hother⟩ := updatedEvent_of_ok hok
  rw [hrow, hrow', Option.map_some, Option.map_some, Option.some.injEq] at hlink
  have hdoc : (UrlV2Doc.fromMongo row').censored = (UrlV2Doc.fromMongo row).censored := by
    rw [UrlV2Doc.censored_fromMongo, UrlV2Doc.censored_fromMongo, hlink]
  have hdest : row'.dest = row.dest := (congrArg UrlRow.dest hlink : row'.censored.dest = row.censored.dest)
  have howner' : row'.ownerId = row.ownerId := (congrArg UrlRow.ownerId hlink : row'.censored.ownerId = _)
  have hsubscriber : hasSubscriber (.fromMongo row') = true := by
    rw [← howner]
    exact congrArg (fun owner => decide (owner ≠ anonymousOwnerId)) howner'
  have hops : ops'.censored = ops.censored := buildOps_eq_of_censored hrequest hdoc hbuild' hbuild
  -- The time of an update is in no censored field.
  have hwritten : ({ ops' with updatedAt := some now } : UrlOps).censored =
      ({ ops with updatedAt := some now } : UrlOps).censored :=
    congrArg (fun ops : UrlOps => { ops with updatedAt := some now }) hops
  have hsame : (eventChanges isoformat (.fromMongo row') row'.dest { ops' with updatedAt := some now }).pop
      "password_protected" = event.changes.pop "password_protected" := by
    rw [hchanges, pop_eventChanges, hwritten, hdoc, hdest, ← pop_eventChanges]
  rw [hother, if_pos hsubscriber]
  by_cases hnone : ops' = {}
  · rw [if_pos hnone]
    refine ⟨nofun, ?_⟩
    rw [← hsame, hnone, changes_of_no_ops]
    rfl
  · rw [if_neg hnone]
    refine ⟨fun event' hevent' => ?_, hsame⟩
    rw [Option.mem_some_iff] at hevent'
    rw [← hevent', hsnapshot, pop_linkSnapshot, UrlOps.censored_merge, hwritten, hdoc, ← UrlOps.censored_merge,
      ← pop_linkSnapshot]

theorem get?_linkSnapshot_password (doc : UrlV2Doc) :
    (linkSnapshot isoformat createdAt doc).get? "password_protected" = some (.bool doc.password.isSome) :=
  PyDict.get?_ofList nodup_snapshotFields rfl

/-- The only field that is told of as a presence is the password. -/
theorem presence_of_get? {existing : UrlV2Doc} {dest : Option UrlDestination} {ops : UrlOps} {change : Change}
    (h : (eventChanges isoformat existing dest ops).get? "password_protected" = some change) :
    ∃ old new, change = ⟨.bool old, .bool new⟩ := by
  have hmem := PyDict.mem_entries_of_get? h
  rw [eventChanges, PyDict.entries_ofList (nodup_changes existing dest ops), UrlOps.items,
    List.filterMap_filterMap, List.mem_filterMap] at hmem
  obtain ⟨field, hfield, hchange⟩ := hmem
  have hnames : ∀ field ∈ ops.fields, publicKey field.1 = "password_protected" → field.1 = "password" := by
    simp [UrlOps.fields, publicKey, changeKeyPublic]
  obtain ⟨item, hitem, hchange⟩ := Option.bind_eq_some_iff.1 hchange
  obtain ⟨value, -, rfl⟩ := Option.map_eq_some_iff.1 hitem
  have hkey := congrArg (Option.map Prod.fst) hchange
  rw [fst_changeOf] at hkey
  obtain ⟨-, hkey⟩ := Option.ite_none_left_eq_some.1 hkey
  have hname := hnames field hfield (Option.some.inj hkey)
  unfold changeOf at hchange
  rw [if_neg (by rw [hname]; decide), if_pos hname, Option.some.injEq, Prod.mk.injEq] at hchange
  exact ⟨_, _, hchange.2.symm⟩

theorem tellsPresence
    (h : updatedEvent isoformat env edge urlId request ownerId clientIp now createdAt s = some event) :
    TellsPresence event := by
  obtain ⟨row, ops, -, -, -, hsnapshot, hchanges⟩ := updatedEvent_spec h
  constructor
  · rw [hsnapshot]
    exact ⟨_, get?_linkSnapshot_password _⟩
  · intro change hchange
    rw [hchanges] at hchange
    exact presence_of_get? hchange

/-- The events that speak the snapshot's names: no destination and no `private_stats` was changed. -/
theorem updated_keys_public_iff {row : UrlRow} (hrow : s.urls.lookup urlId = some row)
    (h : updatedEvent isoformat env edge urlId request ownerId clientIp now createdAt s = some event) :
    ((∀ key ∈ event.changes.keys, key ∈ event.link.keys) ∧
      HidesSecrets isoformat createdAt env edge urlId ownerId request now s event ∧ TellsPresence event) ↔
      KeepsHidden request (.fromMongo row) := by
  have hpublic : (∀ key ∈ event.changes.keys, key ∈ event.link.keys) ↔
      KeepsHidden request (.fromMongo row) := by
    obtain ⟨found, ops, hfound, hbuild, -, hsnapshot, hchanges⟩ := updatedEvent_spec h
    rw [hrow, Option.some.injEq] at hfound
    subst hfound
    -- The time of the update is none of the three fields.
    have hkeeps := buildOps_keeps_iff hbuild
    rw [hsnapshot, hchanges, keys_linkSnapshot, keys_eventChanges_public_iff]
    exact hkeeps
  rw [hpublic]
  exact and_iff_left ⟨hidesSecrets h, tellsPresence h⟩

end

/-- The times are not shown. -/
def untimed : Datetime → String := fun _ => ""

/-- An update of a link's cap. -/
def newCap : UpdateUrlRequest where
  maxClicks := some (some 20)

theorem updated_keys_public_iff_cap :
    ∃ event, updatedEvent untimed openEnv plainEdge 1 newCap 7 none 0 (.naive 0) ownedStores = some event ∧
      (∀ key ∈ event.changes.keys, key ∈ event.link.keys) ∧
      HidesSecrets untimed (.naive 0) openEnv plainEdge 1 7 newCap 0 ownedStores event ∧
      TellsPresence event := by
  have hsome :
      (updatedEvent untimed openEnv plainEdge 1 newCap 7 none 0 (.naive 0) ownedStores).isSome = true := by
    decide +kernel
  have hkeeps : KeepsHidden newCap (.fromMongo ownedLink) := by
    constructor <;> exact nofun
  obtain ⟨event, hevent⟩ := Option.isSome_iff_exists.1 hsome
  exact ⟨event, hevent, (updated_keys_public_iff rfl hevent).2 hkeeps⟩

/-- A new destination is told of as `dest` as well, which the snapshot does not know. -/
theorem new_destination_tells_dest :
    ∃ event ∈ updatedEvent untimed openEnv plainEdge 1 { longUrl := some "https://b.example/" } 7 none 0
      (.naive 0) ownedStores, "dest" ∈ event.changes.keys ∧ "dest" ∉ event.link.keys := by
  decide +kernel

end Spoo
