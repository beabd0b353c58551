import Spoo.Proofs.StandingBans
import Spoo.Services.UrlService.Create

/-!
# New destinations: the gate and the stamp

Destinations enter a link through five fields, at creation and in every update. Each that was not there before went
through the gate, and the call would have failed had the gate rejected it. Safety enforcement finds a link through
`dest` alone. Every creation stamps the link, and every update that changes a destination stamps it again, from the
new values and the stored ones.
-/

namespace Spoo

open Fallible Mongo Mongo.Collection

/-! ## The gate -/

/-- The same service with another gate. -/
def UpdateEnv.withGate (env : UpdateEnv) (gate : String → Option PolicyRejection) : UpdateEnv :=
  { env with checkPolicy := gate }

/-- The same service with another gate. -/
def CreateEnv.withGate (env : CreateEnv) (gate : String → Option PolicyRejection) : CreateEnv :=
  { env with checkPolicy := gate }

/-! ## What a handler asks the gate decides only whether it refuses -/

section

variable {env : UpdateEnv} {gate : String → Option PolicyRejection} {now : Int}
  {request : UpdateUrlRequest} {existing : UrlV2Doc} {ops : UrlOps}

theorem handleLongUrl_agree : Agree (handleLongUrl env now request existing ops)
    (handleLongUrl (env.withGate gate) now request existing ops) := by
  unfold handleLongUrl
  split
  · split
    · exact .bind (agree_checks _ _) fun _ => .refl _
    · exact .refl _
  · exact .refl _

theorem optionalDestination_agree (field : String) (requested current : Option String) :
    Agree (optionalDestination env field requested current)
      (optionalDestination (env.withGate gate) field requested current) := by
  unfold optionalDestination
  split
  · exact .refl _
  · split
    · exact .refl _
    · exact .bind (agree_checks _ _) fun _ => .refl _

theorem handlePreStartUrl_agree : Agree (handlePreStartUrl env now request existing ops)
    (handlePreStartUrl (env.withGate gate) now request existing ops) := by
  unfold handlePreStartUrl
  split
  · exact .refl _
  · exact .bind (optionalDestination_agree _ _ _) fun _ => .refl _

theorem handleExpiredRedirectUrl_agree :
    Agree (handleExpiredRedirectUrl env now request existing ops)
      (handleExpiredRedirectUrl (env.withGate gate) now request existing ops) := by
  unfold handleExpiredRedirectUrl
  split
  · exact .refl _
  · exact .bind (optionalDestination_agree _ _ _) fun _ => .refl _

theorem handleGeoRules_agree : Agree (handleGeoRules env now request existing ops)
    (handleGeoRules (env.withGate gate) now request existing ops) := by
  unfold handleGeoRules
  split
  · exact .refl _
  · dsimp only
    split
    · exact .refl _
    · split
      · exact .refl _
      · exact .bind (agree_checks _ _) fun _ => .bind (agree_checks _ _) fun _ => .refl _

theorem handleAbVariants_agree : Agree (handleAbVariants env now request existing ops)
    (handleAbVariants (env.withGate gate) now request existing ops) := by
  unfold handleAbVariants
  split
  · exact .refl _
  · dsimp only
    split
    · exact .refl _
    · split
      · exact .refl _
      · exact .bind (agree_checks _ _) fun _ => .bind (agree_checks _ _) fun _ => .refl _

theorem handler_agree {handler : Handler} (hmem : handler ∈ fieldHandlers) :
    Agree (handler env now request existing ops)
      (handler (env.withGate gate) now request existing ops) := by
  simp only [fieldHandlers, List.mem_cons, List.not_mem_nil, or_false] at hmem
  -- Apart from the five destinations the handlers do not ask the gate.
  rcases hmem with rfl | rfl | rfl | rfl | rfl | rfl | rfl | rfl | rfl | rfl | rfl | rfl | rfl |
    rfl | rfl | rfl
  · exact handleLongUrl_agree
  · exact .refl _
  · exact .refl _
  · exact .refl _
  · exact .refl _
  · exact .refl _
  · exact .refl _
  · exact handlePreStartUrl_agree
  · exact .refl _
  · exact .refl _
  · exact .refl _
  · exact handleGeoRules_agree
  · exact .refl _
  · exact handleAbVariants_agree
  · exact handleExpiredRedirectUrl_agree
  · exact .refl _

theorem buildOps_agree {clientIp : Option String} :
    Agree (buildOps env now request clientIp existing)
      (buildOps (env.withGate gate) now request clientIp existing) := by
  unfold buildOps
  refine .bind (.foldlM (fun handler hmem _ => handler_agree hmem) _) fun _ => ?_
  exact .refl _

end

/-! ## Creation -/

namespace UrlService

section

variable {env : CreateEnv} {gate : String → Option PolicyRejection} {request : CreateUrlRequest}
  {ownerId : Option ObjectId} {clientIp : String} {domain : Option String} {now : Int}
  {s : Stores} {row : UrlRow}

theorem checkRequest_agree {owner : ObjectId} :
    Agree (checkRequest env.toUpdateEnv request owner now)
      (checkRequest (env.withGate gate).toUpdateEnv request owner now) := by
  unfold checkRequest
  refine .bind (agree_checks _ _) fun _ => .bind (agree_checks _ _) fun _ =>
    .bind (agree_checks _ _) fun _ => .bind (agree_checks _ _) fun _ => .bind (.refl _) fun _ => ?_
  exact .bind (agree_checks _ _) fun _ => .bind (agree_checks _ _) fun _ =>
    .bind (agree_checks _ _) fun _ => .bind (agree_checks _ _) fun _ => .refl _

theorem buildRow_agree : Agree (buildRow env request ownerId clientIp domain now s)
    (buildRow (env.withGate gate) request ownerId clientIp domain now s) := by
  unfold buildRow
  refine .bind checkRequest_agree fun _ => .bind ?_ fun _ => ?_
  · exact .refl (chooseAlias env request (targetDomain env.toUpdateEnv domain) s)
  · exact .bind (.refl _) fun _ => .refl _

/-- The document is the one of the request under the alias that was chosen. -/
theorem buildRow_ok (h : buildRow env request ownerId clientIp domain now s = .ok row) :
    ∃ metaTags linkAlias tagIds,
      checkRequest env.toUpdateEnv request (ownerId.getD anonymousOwnerId) now = .ok metaTags ∧
      chooseAlias env request (targetDomain env.toUpdateEnv domain) s = .ok linkAlias ∧
      row = newRow env request ownerId clientIp linkAlias (targetDomain env.toUpdateEnv domain)
        tagIds metaTags := by
  unfold buildRow at h
  obtain ⟨metaTags, hchecks, h⟩ := bind_eq_ok.1 h
  obtain ⟨linkAlias, halias, h⟩ := bind_eq_ok.1 h
  obtain ⟨tagIds, -, h⟩ := bind_eq_ok.1 h
  exact ⟨metaTags, linkAlias, tagIds, hchecks, halias, (Except.ok.inj h).symm⟩

theorem checkPolicy_of_checkOptional {env : UpdateEnv} {field url : String} {value : Option String}
    (h : checkOptional env field value = .ok ()) (hurl : orNone value = some url) :
    env.checkPolicy url = none := by
  unfold checkOptional at h
  rw [hurl] at h
  exact checkPolicy_of_checkDestination h

theorem checkPolicy_of_checkGeoRules {env : UpdateEnv} {rules : PyDict String String}
    (h : checkGeoRules env rules = .ok ()) : ∀ url ∈ rules.values, env.checkPolicy url = none := by
  unfold checkGeoRules at h
  split at h
  · rename_i hempty
    simp [PyDict.values, hempty]
  · obtain ⟨_, -, h⟩ := bind_eq_ok.1 h
    exact checkPolicy_of_geoDestinations h

theorem checkPolicy_of_checkAbVariants {env : UpdateEnv} {variants : List AbVariant}
    (h : checkAbVariants env variants = .ok ()) :
    ∀ url ∈ variants.map (·.url), env.checkPolicy url = none := by
  unfold checkAbVariants at h
  split at h
  · rename_i hempty
    simp [hempty]
  · obtain ⟨_, -, h⟩ := bind_eq_ok.1 h
    exact checkPolicy_of_variantDestinations h

/-- Every destination of a new link passed the gate. -/
theorem checkPolicy_of_buildRow (h : buildRow env request ownerId clientIp domain now s = .ok row) :
    ∀ url ∈ row.destinationUrls, env.checkPolicy url = none := by
  obtain ⟨metaTags, linkAlias, tagIds, hchecks, -, rfl⟩ := buildRow_ok h
  unfold checkRequest at hchecks
  obtain ⟨_, hlong, hchecks⟩ := bind_eq_ok.1 hchecks
  obtain ⟨_, hgeo, hchecks⟩ := bind_eq_ok.1 hchecks
  obtain ⟨_, hvariants, hchecks⟩ := bind_eq_ok.1 hchecks
  obtain ⟨_, hexpired, hchecks⟩ := bind_eq_ok.1 hchecks
  obtain ⟨_, -, hchecks⟩ := bind_eq_ok.1 hchecks
  obtain ⟨_, -, hchecks⟩ := bind_eq_ok.1 hchecks
  obtain ⟨_, -, hchecks⟩ := bind_eq_ok.1 hchecks
  obtain ⟨_, -, hchecks⟩ := bind_eq_ok.1 hchecks
  obtain ⟨_, hpre, -⟩ := bind_eq_ok.1 hchecks
  intro url hurl
  rw [UrlRow.destinationUrls, mem_linkDestinationUrls] at hurl
  obtain ⟨-, hurl | hurl | hurl | hurl | hurl⟩ := hurl
  · cases hurl
    exact checkPolicy_of_checkDestination hlong
  · rw [newRow, values_filter_entries] at hurl
    refine checkPolicy_of_checkGeoRules hgeo url ?_
    cases hrules : request.geoRules with
    | none => simp [hrules] at hurl
    | some rules => simpa [hrules] using hurl
  · rw [newRow, Option.getD_some, variantUrls_filter] at hurl
    exact checkPolicy_of_checkAbVariants hvariants url hurl
  · exact checkPolicy_of_checkOptional hpre hurl
  · exact checkPolicy_of_checkOptional hexpired hurl

/-- A creation leaves the stores alone and fails, or inserts the document it built. -/
theorem create_cases (edge : EdgeConfig) :
    ((create env edge request ownerId clientIp domain now s).2 = s ∧
        ∀ result, (create env edge request ownerId clientIp domain now s).1 ≠ .ok result) ∨
      ∃ row urls, buildRow env request ownerId clientIp domain now s = .ok row ∧
        s.urls.insertOne row = some urls ∧
        create env edge request ownerId clientIp domain now s =
          (.ok (newDoc request row, row.claimTokenHash.map fun _ => env.claimToken),
            { s with urls, kv := pushEdge edge (newDoc request row) now s.kv }) := by
  unfold create
  cases hbuild : buildRow env request ownerId clientIp domain now s with
  | error e => exact .inl ⟨rfl, fun _ h => by cases h⟩
  | ok row =>
    dsimp only
    cases hinsert : UrlRepository.insert s.urls row with
    | none => exact .inl ⟨rfl, fun _ h => by cases h⟩
    | some urls => exact .inr ⟨row, urls, rfl, hinsert, rfl⟩

theorem create_ok {edge : EdgeConfig} {result : UrlV2Doc × Option String}
    (h : (create env edge request ownerId clientIp domain now s).1 = .ok result) :
    ∃ row urls, buildRow env request ownerId clientIp domain now s = .ok row ∧
      s.urls.insertOne row = some urls ∧
      (create env edge request ownerId clientIp domain now s).2.urls = urls := by
  rcases create_cases edge with ⟨-, hfailed⟩ | ⟨row, urls, hbuild, hinsert, hcreate⟩
  · exact absurd h (hfailed result)
  · exact ⟨row, urls, hbuild, hinsert, by rw [hcreate]⟩

end

section

variable {env : UpdateEnv} {edge : EdgeConfig} {request : UpdateUrlRequest}
  {urlId ownerId : ObjectId} {clientIp : Option String} {now : Int} {s : Stores}

/-- A successful update has built its operations on the link it read, and has written them unless
there were none. -/
theorem update_ok {doc : UrlV2Doc}
    (h : (update env edge urlId request ownerId clientIp now s).1 = some (.ok doc)) :
    ∃ row built, s.urls.lookup urlId = some row ∧
      buildOps env now request clientIp (.fromMongo row) = .ok built ∧
      ((update env edge urlId request ownerId clientIp now s).2.urls = s.urls ∨
        UrlRepository.update s.urls urlId
            ({ built with updatedAt := some now } : UrlOps).toUpdate =
          some (update env edge urlId request ownerId clientIp now s).2.urls) := by
  cases hdecide : (do
      let existing ← loadOwned (UrlRepository.findById s.urls urlId) ownerId
        "Cannot modify a blocked URL"
      let ops ← buildOps env now request clientIp existing
      .ok (existing, ops) : Except AppError (UrlV2Doc × UrlOps)) with
  | error e =>
    simp [update, updateCalls, readForUpdate, hdecide, writeUpdate, invalidateKeys, reconcileEdge,
      onPending] at h
  | ok decision =>
    obtain ⟨existing, hload, hbuilt⟩ := bind_eq_ok.1 hdecide
    obtain ⟨built, hbuild, hbuilt⟩ := bind_eq_ok.1 hbuilt
    obtain ⟨row, hrow, rfl, -, -⟩ := loadOwned_ok hload
    cases hbuilt
    refine ⟨row, built, hrow, hbuild, ?_⟩
    have hcases : (update env edge urlId request ownerId clientIp now s).2 = s ∨ _ := update_cases
    rcases hcases with hsame | hwritten
    · exact .inl (congrArg Stores.urls hsame)
    · obtain ⟨row', built', urls, hrow', hbuild', hwrite, hurls, -⟩ := hwritten
      cases hrow.symm.trans hrow'
      cases hbuild.symm.trans hbuild'
      exact .inr (hurls ▸ hwrite)

end

end UrlService

/-! ## The two calls -/

/-- A call that can bring destinations into a link. -/
inductive LinkRequest where
  | create (request : CreateUrlRequest) (ownerId : Option ObjectId) (clientIp : String)
      (domain : Option String) (now : Int)
  | update (urlId : ObjectId) (request : UpdateUrlRequest) (ownerId : ObjectId)
      (clientIp : Option String) (now : Int)

/-- Run the call: what it returns or raises, and the stores it leaves. -/
def LinkRequest.run (env : CreateEnv) (edge : EdgeConfig) (s : Stores) :
    LinkRequest → Option (Except Raised UrlV2Doc) × Stores
  | .create request ownerId clientIp domain now =>
    let r := UrlService.create env edge request ownerId clientIp domain now s
    (some (r.1.map Prod.fst), r.2)
  | .update urlId request ownerId clientIp now =>
    UrlService.update env.toUpdateEnv edge urlId request ownerId clientIp now s

/-- The URLs the link routes to, none where there is no link. -/
def destinationsAt (urls : UrlStore) (urlId : ObjectId) : List String :=
  ((urls.lookup urlId).map UrlRow.destinationUrls).getD []

section

variable {edge : EdgeConfig} {s : Stores} {urlId : ObjectId} {url : String} {now : Int}

/-- What a creation brings in are the destinations of the document it built. -/
theorem new_destinations_create {env : CreateEnv} {request : CreateUrlRequest}
    {ownerId : Option ObjectId} {clientIp : String} {domain : Option String}
    {result : UrlV2Doc × Option String}
    (hok : (UrlService.create env edge request ownerId clientIp domain now s).1 = .ok result)
    (hafter : url ∈ destinationsAt
      (UrlService.create env edge request ownerId clientIp domain now s).2.urls urlId)
    (hbefore : url ∉ destinationsAt s.urls urlId) :
    ∃ row, UrlService.buildRow env request ownerId clientIp domain now s = .ok row ∧
      url ∈ row.destinationUrls := by
  obtain ⟨row, urls, hbuild, hinsert, hurls⟩ := UrlService.create_ok hok
  refine ⟨row, hbuild, ?_⟩
  rw [hurls, destinationsAt, lookup_insertOne hinsert] at hafter
  unfold destinationsAt at hbefore
  cases hfound : s.urls.lookup urlId with
  | some found =>
    rw [hfound] at hbefore hafter
    exact absurd hafter hbefore
  | none =>
    rw [hfound, Option.none_or] at hafter
    split at hafter
    · exact hafter
    · simp at hafter

/-- What an update brings in are the destinations of the operations it built. -/
theorem new_destinations_update {env : UpdateEnv} {request : UpdateUrlRequest}
    {target ownerId : ObjectId} {clientIp : Option String} {doc : UrlV2Doc}
    (hok : (UrlService.update env edge target request ownerId clientIp now s).1 = some (.ok doc))
    (hafter : url ∈ destinationsAt
      (UrlService.update env edge target request ownerId clientIp now s).2.urls urlId)
    (hbefore : url ∉ destinationsAt s.urls urlId) :
    ∃ row built, s.urls.lookup target = some row ∧
      buildOps env now request clientIp (.fromMongo row) = .ok built ∧ url ∈ built.newUrls := by
  obtain ⟨row, built, hrow, hbuild, hurls⟩ := UrlService.update_ok hok
  refine ⟨row, built, hrow, hbuild, ?_⟩
  rcases hurls with hsame | hwrite
  · rw [hsame] at hafter
    exact absurd hafter hbefore
  · unfold destinationsAt at hafter hbefore
    rw [lookup_updateManyUnique hwrite] at hafter
    cases hfound : s.urls.lookup urlId with
    | none =>
      rw [hfound] at hafter
      simp at hafter
    | some found =>
      rw [hfound, Option.map_some, Option.map_some, Option.getD_some] at hafter
      rw [hfound, Option.map_some, Option.getD_some] at hbefore
      unfold applyWhere at hafter
      split at hafter
      · have hnew := UrlOps.mem_destinationUrls_toUpdate hafter
        exact hnew.resolve_left hbefore
      · exact absurd hafter hbefore

end

/-- Every destination that a successful call brings into a link passed the gate, and under any gate
that rejects it the same call fails. -/
theorem new_destinations_gated (env : CreateEnv) (edge : EdgeConfig) (s : Stores)
    (call : LinkRequest) (doc : UrlV2Doc) (hok : (call.run env edge s).1 = some (.ok doc))
    (urlId : ObjectId) (url : String)
    (hafter : url ∈ destinationsAt (call.run env edge s).2.urls urlId)
    (hbefore : url ∉ destinationsAt s.urls urlId) :
    env.checkPolicy url = none ∧
      ∀ gate, gate url ≠ none →
        ∀ doc, (call.run (env.withGate gate) edge s).1 ≠ some (.ok doc) := by
  cases call with
  | create request ownerId clientIp domain now =>
    obtain ⟨result, hresult, -⟩ := map_eq_ok.1 (Option.some.inj hok)
    obtain ⟨row, hbuild, hurl⟩ := new_destinations_create hresult hafter hbefore
    refine ⟨UrlService.checkPolicy_of_buildRow hbuild url hurl, fun gate hgate doc hother => ?_⟩
    obtain ⟨result, hresult, -⟩ := map_eq_ok.1 (Option.some.inj hother)
    obtain ⟨row', -, hbuild', -⟩ := UrlService.create_ok hresult
    have hsame : row = row' := UrlService.buildRow_agree row row' hbuild hbuild'
    exact hgate (UrlService.checkPolicy_of_buildRow hbuild' url (hsame ▸ hurl))
  | update target request ownerId clientIp now =>
    obtain ⟨row, built, hrow, hbuild, hurl⟩ := new_destinations_update hok hafter hbefore
    refine ⟨(edits_buildOps hbuild).1.newUrls url hurl, fun gate hgate doc hother => ?_⟩
    obtain ⟨row', built', hrow', hbuild', -⟩ := UrlService.update_ok hother
    cases hrow.symm.trans hrow'
    have hsame : built = built' := buildOps_agree built built' hbuild hbuild'
    exact hgate ((edits_buildOps hbuild').1.newUrls url (hsame ▸ hurl))

/-- A service whose gate lets every destination through and that always draws the same code. -/
def openCreateEnv : CreateEnv where
  toUpdateEnv := openEnv
  shortCode _ := ⟨"aaaaaaa", by decide, by decide⟩
  emojiAlias _ := "⭐⭐⭐"
  resolveNewTagIds _ _ := .ok []
  claimToken := "token"
  hashToken token := token
  newId := 1

/-- No link at all. -/
def noLinks : Stores where
  urls := .empty
  legacy := .empty
  emoji := .empty

/-- A link with a page before its start. -/
def scheduledRequest : CreateUrlRequest where
  longUrl := "https://a.example/p"
  startsAt := some 5000000
  preStartUrl := some "https://b.example/soon"

/-- The document the request leads to. -/
def scheduledDoc : UrlV2Doc :=
  UrlService.newDoc scheduledRequest
    (UrlService.newRow openCreateEnv scheduledRequest (some 7) "192.0.2.1" "aaaaaaa" "spoo.me" []
      none)

theorem new_destinations_gated_scheduled :
    openCreateEnv.checkPolicy "https://b.example/soon" = none ∧
      ∀ gate, gate "https://b.example/soon" ≠ none →
        ∀ doc, ((LinkRequest.create scheduledRequest (some 7) "192.0.2.1" none 0).run
          (openCreateEnv.withGate gate) plainEdge noLinks).1 ≠ some (.ok doc) :=
  new_destinations_gated openCreateEnv plainEdge noLinks
    (.create scheduledRequest (some 7) "192.0.2.1" none 0) scheduledDoc rfl 1
    "https://b.example/soon" (by decide +kernel) (by decide +kernel)

/-! ## The destination stamp -/

/-! ## One write -/

/-- An update keeps the stamp of a link. -/
theorem UrlRow.IsStamped.toUpdate {env : UpdateEnv} {row : UrlRow} {ops : UrlOps}
    (hrow : row.IsStamped env.lib) (hops : ops.Edits env (.fromMongo row)) :
    (ops.toUpdate.apply row).IsStamped env.lib := by
  cases hchanges : ops.changesDestination with
  | true => exact UrlOps.isStamped_toUpdate hops hchanges
  | false =>
    obtain ⟨hlong, hgeo, hvariants, hpre, hexpired⟩ := UrlOps.destinations_toUpdate row hchanges
    rw [UrlRow.IsStamped, UrlOps.dest_toUpdate hops hchanges, hlong, hgeo, hvariants, hpre,
      hexpired]
    exact hrow

/-- No write of an owner leaves a link without its stamp. -/
theorem OwnerSteps.isStamped {env : UpdateEnv} {o o' : Option UrlRow} (h : OwnerSteps env o o')
    (ho : ∀ row, o = some row → row.IsStamped env.lib) :
    ∀ row, o' = some row → row.IsStamped env.lib := by
  induction h with
  | refl => exact ho
  | tail _ hstep ih =>
    intro row' hrow'
    cases hstep with
    | deleted => cases hrow'
    | @edited row ops _ hops =>
      cases hrow'
      exact (ih row rfl).toUpdate hops
    | @retagged row =>
      cases hrow'
      exact ih row rfl
    | @claimed row =>
      cases hrow'
      exact ih row rfl

/-- A new link is stamped from the values it is stored with. -/
theorem UrlService.isStamped_newRow (env : CreateEnv) (request : CreateUrlRequest)
    (ownerId : Option ObjectId) (clientIp linkAlias domain : String) (tagIds : List ObjectId)
    (metaTags : Option (MetaTagsRequest × Option MetaImageMeta)) :
    (UrlService.newRow env request ownerId clientIp linkAlias domain tagIds metaTags).IsStamped
      env.lib := by
  have hurls : linkDestinationUrls none (request.geoRules.filter (·.entries ≠ []))
      (some (variantUrls (request.abVariants.filter (· ≠ [])))) (orNone request.preStartUrl)
        (orNone request.expiredRedirectUrl) =
      linkDestinationUrls none request.geoRules (some (variantUrls request.abVariants))
        (orNone request.preStartUrl) (orNone request.expiredRedirectUrl) := by
    simp only [linkDestinationUrls, values_filter_entries, variantUrls_filter]
  simp only [UrlRow.IsStamped, UrlService.newRow, UrlDestination.forLink, hurls]

/-! ## Runs -/

/-- Run one call of the service. What other components answer meanwhile is its environment. -/
def LinkRequest.step (lib : UrlLib) (edge : EdgeConfig) (s : Stores)
    (op : CreateEnv × LinkRequest) : Stores :=
  (op.2.run { op.1 with lib := lib } edge s).2

/-- Every link is stamped. -/
def AllStamped (lib : UrlLib) (urls : UrlStore) : Prop :=
  ∀ urlId row, urls.lookup urlId = some row → row.IsStamped lib

theorem AllStamped.step {lib : UrlLib} {edge : EdgeConfig} {s : Stores}
    (h : AllStamped lib s.urls) (op : CreateEnv × LinkRequest) :
    AllStamped lib (LinkRequest.step lib edge s op).urls := by
  obtain ⟨env, call⟩ := op
  cases call with
  | create request ownerId clientIp domain now =>
    have hcases : (UrlService.create { env with lib := lib } edge request ownerId clientIp domain now
      s).2 = s ∧ _ ∨ _ := UrlService.create_cases edge
    intro urlId row' hrow'
    rcases hcases with ⟨hsame, -⟩ | ⟨row, urls, hbuild, hinsert, hcreate⟩
    · have hstep : LinkRequest.step lib edge s
          (env, .create request ownerId clientIp domain now) = s := hsame
      rw [hstep] at hrow'
      exact h urlId row' hrow'
    · have hurls : (LinkRequest.step lib edge s
          (env, .create request ownerId clientIp domain now)).urls = urls :=
        congrArg (fun r => r.2.urls) hcreate
      rw [hurls, lookup_insertOne hinsert, Option.or_eq_some_iff] at hrow'
      rcases hrow' with hrow' | ⟨-, hrow'⟩
      · exact h urlId row' hrow'
      · obtain ⟨metaTags, linkAlias, tagIds, -, -, rfl⟩ := UrlService.buildRow_ok hbuild
        split at hrow'
        · cases hrow'
          exact UrlService.isStamped_newRow { env with lib := lib } _ _ _ _ _ _ _
        · cases hrow'
  | update target request ownerId clientIp now =>
    intro urlId
    exact (UrlService.ownerSteps_update edge urlId).isStamped (h urlId)

/-- The stamp says what the link routes to: `dest.host` and `dest.secondary_hosts` are the hosts of
its URLs, and `dest.secondary_registrable` lists their registrable domains in the same order. -/
structure UrlRow.StampMatches (lib : UrlLib) (row : UrlRow) : Prop where
  hosts : ∀ host, host ≠ "" →
    (host ∈ row.hosts ↔ ∃ url ∈ row.destinationUrls, destinationHost lib url = some host)
  aligned : ∀ dest ∈ row.dest, List.Forall₂
    (fun host registrable => ∃ url ∈ row.destinationUrls, ∃ parts,
      parseDestination lib url = some parts ∧ parts.host = host ∧
        parts.registrableDomain = registrable)
    dest.secondaryHosts dest.secondaryRegistrable

theorem UrlRow.IsStamped.stampMatches {lib : UrlLib} {row : UrlRow} (h : row.IsStamped lib) :
    row.StampMatches lib where
  hosts _ hne := h.mem_hosts hne
  aligned dest hdest := by
    have hsecondary : ∀ url ∈ linkDestinationUrls none row.geoRules
        (some (variantUrls row.abVariants)) row.preStartUrl row.expiredRedirectUrl,
        url ∈ row.destinationUrls := by
      intro url hurl
      rw [UrlRow.destinationUrls, mem_linkDestinationUrls]
      rw [mem_linkDestinationUrls] at hurl
      exact ⟨hurl.1, .inr (hurl.2.resolve_left (by simp))⟩
    rw [UrlRow.IsStamped] at h
    rw [h, Option.mem_def, UrlDestination.forLink] at hdest
    split at hdest
    · cases hdest
    · cases hdest
      refine (forall₂_secondaryHosts lib _ _).imp ?_
      rintro host registrable ⟨url, hurl, hparts⟩
      exact ⟨url, hsecondary url hurl, hparts⟩

/-- In every state of a run of creations and updates the stamp of every link is the hosts of its
destinations. -/
theorem stamps_match_destinations (lib : UrlLib) (edge : EdgeConfig) (s : Stores)
    (ops : List (CreateEnv × LinkRequest)) (hstart : ∀ row ∈ s.urls.docs, row.IsStamped lib) :
    ∀ t ∈ List.scanl (LinkRequest.step lib edge) s ops, ∀ row ∈ t.urls.docs,
      row.StampMatches lib := by
  have hlookup : AllStamped lib s.urls := fun urlId row hrow =>
    hstart row (lookup_eq_some_iff.1 hrow).1
  have hrun : ∀ t ∈ List.scanl (LinkRequest.step lib edge) s ops, AllStamped lib t.urls :=
    Run.forall_mem_scanl_of_step (P := fun t : Stores => AllStamped lib t.urls)
      (fun t op ht => AllStamped.step ht op) hlookup
  intro t ht row hrow
  exact (hrun t ht row.id row (lookup_eq_some_iff.2 ⟨hrow, rfl⟩)).stampMatches

/-- A creation, and an update that clears the page before the start. -/
def createThenClear : List (CreateEnv × LinkRequest) := [
  (openCreateEnv, .create scheduledRequest (some 7) "192.0.2.1" none 0),
  (openCreateEnv, .update 1 { preStartUrl := some none } 7 none 1)]

theorem stamps_match_destinations_createThenClear :
    (∀ row ∈ noLinks.urls.docs, row.IsStamped asciiUrlLib) ∧
    ∀ t ∈ List.scanl (LinkRequest.step asciiUrlLib plainEdge) noLinks createThenClear,
      ∀ row ∈ t.urls.docs, row.StampMatches asciiUrlLib := by
  have hstart : ∀ row ∈ noLinks.urls.docs, row.IsStamped asciiUrlLib := by simp [noLinks]
  exact ⟨hstart, stamps_match_destinations asciiUrlLib plainEdge noLinks createThenClear hstart⟩

end Spoo
