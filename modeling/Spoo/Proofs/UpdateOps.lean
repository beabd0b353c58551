import Spoo.Lib.Fallible
import Spoo.Services.UrlService.Service

/-!
# What an update collects

The handlers of an update one by one: the destinations they collect passed the gate, and none
but the status handler touches the status.
-/

namespace Spoo

open Fallible

variable {env : UpdateEnv} {now : Int} {request : UpdateUrlRequest} {existing : UrlV2Doc}
  {ops ops' : UrlOps}

theorem checkPolicy_of_checkDestination {url field : String}
    (h : checkDestination env url field = .ok ()) : env.checkPolicy url = none := by
  unfold checkDestination at h
  split at h
  · cases h
  · assumption

theorem checkPolicy_of_checkDestinations {destinations : List (String × String)}
    (h : checkDestinations env destinations = .ok ()) :
    ∀ destination ∈ destinations, env.checkPolicy destination.2 = none := by
  intro destination hmem
  exact checkPolicy_of_checkDestination (forM_eq_ok h destination hmem)

theorem checkPolicy_of_geoDestinations {rules : PyDict String String}
    (h : checkDestinations env (rules.entries.map fun rule => ("geo_rules." ++ rule.1, rule.2)) =
      .ok ()) : ∀ url ∈ rules.values, env.checkPolicy url = none := by
  intro url hurl
  obtain ⟨rule, hrule, rfl⟩ := List.mem_map.1 hurl
  exact checkPolicy_of_checkDestinations h ("geo_rules." ++ rule.1, rule.2)
    (List.mem_map.2 ⟨rule, hrule, rfl⟩)

theorem checkPolicy_of_variantDestinations {variants : List AbVariant}
    (h : checkDestinations env (variants.zipIdx.map fun variant =>
      ("ab_variants." ++ toString variant.2 ++ ".url", variant.1.url)) = .ok ()) :
    ∀ url ∈ variants.map (·.url), env.checkPolicy url = none := by
  intro url hurl
  obtain ⟨variant, hvariant, rfl⟩ := List.mem_map.1 hurl
  obtain ⟨i, hi⟩ := List.mem_iff_getElem?.1 hvariant
  exact checkPolicy_of_checkDestinations h ("ab_variants." ++ toString i ++ ".url", variant.url)
    (List.mem_map.2 ⟨(variant, i), List.mk_mem_zipIdx_iff_getElem?.2 hi, rfl⟩)

namespace UrlOps

/-- The destinations the operations write. -/
def newUrls (ops : UrlOps) : List String :=
  linkDestinationUrls ops.longUrl ops.geoRules.join (some (variantUrls ops.abVariants.join))
    ops.preStartUrl.join ops.expiredRedirectUrl.join

/-- The operations agree on the destinations, on the status and on the stamp. -/
structure SameRouting (ops ops' : UrlOps) : Prop where
  longUrl : ops'.longUrl = ops.longUrl
  geoRules : ops'.geoRules = ops.geoRules
  abVariants : ops'.abVariants = ops.abVariants
  preStartUrl : ops'.preStartUrl = ops.preStartUrl
  expiredRedirectUrl : ops'.expiredRedirectUrl = ops.expiredRedirectUrl
  status : ops'.status = ops.status
  dest : ops'.dest = ops.dest

end UrlOps

open UrlOps (SameRouting)

/-! ## What a handler writes

A handler that does not refuse the request has written its own field at most. -/

theorem handleLongUrl_writes (h : handleLongUrl env now request existing ops = .ok ops') :
    ∃ longUrl, ops' = { ops with longUrl } := by
  unfold handleLongUrl at h
  split at h
  · split at h
    · obtain ⟨_, -, h⟩ := bind_eq_ok.1 h
      cases h
      exact ⟨_, rfl⟩
    · cases h
      exact ⟨_, rfl⟩
  · cases h
    exact ⟨_, rfl⟩

theorem handleAlias_writes (h : handleAlias env now request existing ops = .ok ops') :
    ∃ linkAlias, ops' = { ops with linkAlias } ∧
      ∀ a, linkAlias = some a → ops.linkAlias = some a ∨
        ∃ requested, env.canonicalAlias requested = .ok a := by
  unfold handleAlias at h
  split at h
  · cases h
    exact ⟨_, rfl, fun _ => .inl⟩
  · obtain ⟨newAlias, hcanonical, h⟩ := bind_eq_ok.1 h
    have hwritten : ops' = ops ∨ ops' = { ops with linkAlias := some newAlias } := by
      dsimp only at h
      repeat' split at h
      all_goals cases h <;> simp
    rcases hwritten with rfl | rfl
    · exact ⟨_, rfl, fun _ => .inl⟩
    · refine ⟨_, rfl, fun a ha => ?_⟩
      cases ha
      exact .inr ⟨_, hcanonical⟩

theorem handleDomain_writes (h : handleDomain env now request existing ops = .ok ops') :
    ∃ domain, ops' = { ops with domain } := by
  unfold handleDomain at h
  split at h
  · cases h
    exact ⟨_, rfl⟩
  · dsimp only at h
    repeat' split at h
    all_goals cases h <;> exact ⟨_, rfl⟩

theorem handlePassword_writes (h : handlePassword env now request existing ops = .ok ops') :
    ∃ password, ops' = { ops with password } := by
  unfold handlePassword at h
  repeat' split at h
  all_goals (cases h; exact ⟨_, rfl⟩)

theorem handleMaxClicks_writes (h : handleMaxClicks env now request existing ops = .ok ops') :
    ∃ maxClicks, ops' = { ops with maxClicks } := by
  unfold handleMaxClicks at h
  repeat' split at h
  all_goals (cases h; exact ⟨_, rfl⟩)

theorem handleExpireAfter_writes (h : handleExpireAfter env now request existing ops = .ok ops') :
    ∃ expireAfter, ops' = { ops with expireAfter } := by
  unfold handleExpireAfter at h
  repeat' split at h
  all_goals cases h <;> exact ⟨_, rfl⟩

theorem handleStartsAt_writes (h : handleStartsAt env now request existing ops = .ok ops') :
    ∃ startsAt, ops' = { ops with startsAt } := by
  unfold handleStartsAt at h
  repeat' split at h
  all_goals cases h <;> exact ⟨_, rfl⟩

theorem handlePreStartUrl_writes
    (h : handlePreStartUrl env now request existing ops = .ok ops') :
    ∃ preStartUrl, ops' = { ops with preStartUrl } := by
  unfold handlePreStartUrl at h
  split at h
  · cases h
    exact ⟨_, rfl⟩
  · obtain ⟨value, -, h⟩ := bind_eq_ok.1 h
    split at h <;> cases h <;> exact ⟨_, rfl⟩

theorem handleBlockBots_writes (h : handleBlockBots env now request existing ops = .ok ops') :
    ∃ blockBots, ops' = { ops with blockBots } := by
  unfold handleBlockBots at h
  repeat' split at h
  all_goals (cases h; exact ⟨_, rfl⟩)

theorem handlePrivateStats_writes (h : handlePrivateStats env now request existing ops = .ok ops') :
    ∃ privateStats, ops' = { ops with privateStats } := by
  unfold handlePrivateStats at h
  repeat' split at h
  all_goals (cases h; exact ⟨_, rfl⟩)

theorem handleStatus_writes (h : handleStatus env now request existing ops = .ok ops') :
    ∃ status, ops' = { ops with status } := by
  unfold handleStatus at h
  repeat' split at h
  all_goals (cases h; exact ⟨_, rfl⟩)

theorem handleGeoRules_writes (h : handleGeoRules env now request existing ops = .ok ops') :
    ∃ geoRules, ops' = { ops with geoRules } := by
  unfold handleGeoRules at h
  split at h
  · cases h
    exact ⟨_, rfl⟩
  · dsimp only at h
    split at h
    · split at h <;> cases h <;> exact ⟨_, rfl⟩
    · split at h
      · cases h
        exact ⟨_, rfl⟩
      · obtain ⟨_, -, h⟩ := bind_eq_ok.1 h
        obtain ⟨_, -, h⟩ := bind_eq_ok.1 h
        cases h
        exact ⟨_, rfl⟩

theorem handleTagIds_writes (h : handleTagIds env now request existing ops = .ok ops') :
    ∃ tagIds, ops' = { ops with tagIds } := by
  unfold handleTagIds at h
  split at h
  · cases h
    exact ⟨_, rfl⟩
  · obtain ⟨tagIds, -, h⟩ := bind_eq_ok.1 h
    split at h <;> cases h <;> exact ⟨_, rfl⟩

theorem handleAbVariants_writes
    (h : handleAbVariants env now request existing ops = .ok ops') :
    ∃ abVariants, ops' = { ops with abVariants } := by
  unfold handleAbVariants at h
  split at h
  · cases h
    exact ⟨_, rfl⟩
  · dsimp only at h
    split at h
    · split at h <;> cases h <;> exact ⟨_, rfl⟩
    · split at h
      · cases h
        exact ⟨_, rfl⟩
      · obtain ⟨_, -, h⟩ := bind_eq_ok.1 h
        obtain ⟨_, -, h⟩ := bind_eq_ok.1 h
        cases h
        exact ⟨_, rfl⟩

theorem handleExpiredRedirectUrl_writes
    (h : handleExpiredRedirectUrl env now request existing ops = .ok ops') :
    ∃ expiredRedirectUrl, ops' = { ops with expiredRedirectUrl } := by
  unfold handleExpiredRedirectUrl at h
  split at h
  · cases h
    exact ⟨_, rfl⟩
  · obtain ⟨value, -, h⟩ := bind_eq_ok.1 h
    split at h <;> cases h <;> exact ⟨_, rfl⟩

theorem handleMetaTags_writes (h : handleMetaTags env now request existing ops = .ok ops') :
    ∃ metaTags, ops' = { ops with metaTags } := by
  unfold handleMetaTags at h
  split at h
  · cases h
    exact ⟨_, rfl⟩
  · split at h <;> cases h <;> exact ⟨_, rfl⟩
  · obtain ⟨tags, -, h⟩ := bind_eq_ok.1 h
    obtain ⟨_, -, h⟩ := bind_eq_ok.1 h
    cases h
    exact ⟨_, rfl⟩

/-- What one handler does to the operations: it leaves them alone, or writes the field that the
request names. A new alias has passed the alias check. -/
inductive FieldWrite (env : UpdateEnv) (request : UpdateUrlRequest) (ops : UrlOps) :
    UrlOps → Prop where
  | untouched : FieldWrite env request ops ops
  | longUrl (longUrl) (named : request.longUrl.isSome) :
      FieldWrite env request ops { ops with longUrl }
  | linkAlias (linkAlias) (named : request.linkAlias.isSome)
      (checked : ∀ a, linkAlias = some a → ops.linkAlias = some a ∨
        ∃ requested, env.canonicalAlias requested = .ok a) :
      FieldWrite env request ops { ops with linkAlias }
  | domain (domain) (named : request.domain.isSome) :
      FieldWrite env request ops { ops with domain }
  | password (password) (named : request.password.isSome) :
      FieldWrite env request ops { ops with password }
  | maxClicks (maxClicks) (named : request.maxClicks.isSome) :
      FieldWrite env request ops { ops with maxClicks }
  | expireAfter (expireAfter) (named : request.expireAfter.isSome) :
      FieldWrite env request ops { ops with expireAfter }
  | startsAt (startsAt) (named : request.startsAt.isSome) :
      FieldWrite env request ops { ops with startsAt }
  | preStartUrl (preStartUrl) (named : request.preStartUrl.isSome) :
      FieldWrite env request ops { ops with preStartUrl }
  | blockBots (blockBots) (named : request.blockBots.isSome) :
      FieldWrite env request ops { ops with blockBots }
  | privateStats (privateStats) (named : request.privateStats.isSome) :
      FieldWrite env request ops { ops with privateStats }
  | status (status) (named : request.status.isSome) :
      FieldWrite env request ops { ops with status }
  | geoRules (geoRules) (named : request.geoRules.isSome) :
      FieldWrite env request ops { ops with geoRules }
  | tagIds (tagIds) (named : request.tagIds.isSome) :
      FieldWrite env request ops { ops with tagIds }
  | abVariants (abVariants) (named : request.abVariants.isSome) :
      FieldWrite env request ops { ops with abVariants }
  | expiredRedirectUrl (expiredRedirectUrl) (named : request.expiredRedirectUrl.isSome) :
      FieldWrite env request ops { ops with expiredRedirectUrl }
  | metaTags (metaTags) (named : request.metaTags.isSome) :
      FieldWrite env request ops { ops with metaTags }

theorem handler_writes {handler : Handler} (hmem : handler ∈ fieldHandlers)
    (h : handler env now request existing ops = .ok ops') : FieldWrite env request ops ops' := by
  have written {β : Type} (requested : Option β) (hnone : requested = none → ops' = ops)
      (hsome : requested.isSome → FieldWrite env request ops ops') : FieldWrite env request ops ops' := by
    cases requested with
    | none => exact hnone rfl ▸ .untouched
    | some _ => exact hsome rfl
  simp only [fieldHandlers, List.mem_cons, List.not_mem_nil, or_false] at hmem
  rcases hmem with rfl | rfl | rfl | rfl | rfl | rfl | rfl | rfl | rfl | rfl | rfl | rfl | rfl |
    rfl | rfl | rfl
  · refine written request.longUrl (fun hreq => by simpa [handleLongUrl, hreq] using h.symm) fun hreq => ?_
    obtain ⟨_, rfl⟩ := handleLongUrl_writes h
    exact .longUrl _ hreq
  · refine written request.linkAlias (fun hreq => by simpa [handleAlias, hreq] using h.symm) fun hreq => ?_
    obtain ⟨_, rfl, hchecked⟩ := handleAlias_writes h
    exact .linkAlias _ hreq hchecked
  · refine written request.domain (fun hreq => by simpa [handleDomain, hreq] using h.symm) fun hreq => ?_
    obtain ⟨_, rfl⟩ := handleDomain_writes h
    exact .domain _ hreq
  · refine written request.password (fun hreq => by simpa [handlePassword, hreq] using h.symm) fun hreq => ?_
    obtain ⟨_, rfl⟩ := handlePassword_writes h
    exact .password _ hreq
  · refine written request.maxClicks (fun hreq => by simpa [handleMaxClicks, hreq] using h.symm) fun hreq => ?_
    obtain ⟨_, rfl⟩ := handleMaxClicks_writes h
    exact .maxClicks _ hreq
  · refine written request.expireAfter (fun hreq => by simpa [handleExpireAfter, hreq] using h.symm) fun hreq => ?_
    obtain ⟨_, rfl⟩ := handleExpireAfter_writes h
    exact .expireAfter _ hreq
  · refine written request.startsAt (fun hreq => by simpa [handleStartsAt, hreq] using h.symm) fun hreq => ?_
    obtain ⟨_, rfl⟩ := handleStartsAt_writes h
    exact .startsAt _ hreq
  · refine written request.preStartUrl (fun hreq => by simpa [handlePreStartUrl, hreq] using h.symm) fun hreq => ?_
    obtain ⟨_, rfl⟩ := handlePreStartUrl_writes h
    exact .preStartUrl _ hreq
  · refine written request.blockBots (fun hreq => by simpa [handleBlockBots, hreq] using h.symm) fun hreq => ?_
    obtain ⟨_, rfl⟩ := handleBlockBots_writes h
    exact .blockBots _ hreq
  · refine written request.privateStats (fun hreq => by simpa [handlePrivateStats, hreq] using h.symm) fun hreq => ?_
    obtain ⟨_, rfl⟩ := handlePrivateStats_writes h
    exact .privateStats _ hreq
  · refine written request.status (fun hreq => by simpa [handleStatus, hreq] using h.symm) fun hreq => ?_
    obtain ⟨_, rfl⟩ := handleStatus_writes h
    exact .status _ hreq
  · refine written request.geoRules (fun hreq => by simpa [handleGeoRules, hreq] using h.symm) fun hreq => ?_
    obtain ⟨_, rfl⟩ := handleGeoRules_writes h
    exact .geoRules _ hreq
  · refine written request.tagIds (fun hreq => by simpa [handleTagIds, hreq] using h.symm) fun hreq => ?_
    obtain ⟨_, rfl⟩ := handleTagIds_writes h
    exact .tagIds _ hreq
  · refine written request.abVariants (fun hreq => by simpa [handleAbVariants, hreq] using h.symm) fun hreq => ?_
    obtain ⟨_, rfl⟩ := handleAbVariants_writes h
    exact .abVariants _ hreq
  · refine written request.expiredRedirectUrl (fun hreq => by simpa [handleExpiredRedirectUrl, hreq] using h.symm) fun hreq => ?_
    obtain ⟨_, rfl⟩ := handleExpiredRedirectUrl_writes h
    exact .expiredRedirectUrl _ hreq
  · refine written request.metaTags (fun hreq => by simpa [handleMetaTags, hreq] using h.symm) fun hreq => ?_
    obtain ⟨_, rfl⟩ := handleMetaTags_writes h
    exact .metaTags _ hreq

theorem mem_fieldHandlers_of_around {handler : Handler} {n m : Nat}
    (h : handler ∈ fieldHandlers.take n ++ fieldHandlers.drop m) : handler ∈ fieldHandlers :=
  (List.mem_append.1 h).elim List.mem_of_mem_take List.mem_of_mem_drop

/-! ## Destinations and status -/

/-- Every destination the operations write passed the gate, the status they ask for is one an
owner may ask for, and they carry no stamp yet. -/
structure UrlOps.Gated (env : UpdateEnv) (ops : UrlOps) : Prop where
  longUrl : ∀ url, ops.longUrl = some url → env.checkPolicy url = none
  geoRules : ∀ url ∈ (ops.geoRules.join.map PyDict.values).getD [], env.checkPolicy url = none
  abVariants : ∀ url ∈ variantUrls ops.abVariants.join, env.checkPolicy url = none
  preStartUrl : ∀ url, ops.preStartUrl.join = some url → env.checkPolicy url = none
  expiredRedirectUrl :
    ∀ url, ops.expiredRedirectUrl.join = some url → env.checkPolicy url = none
  status : ∀ status, ops.status = some status → status = .active ∨ status = .inactive
  dest : ops.dest = none

namespace UrlOps.Gated

theorem empty (env : UpdateEnv) : ({} : UrlOps).Gated env := by
  constructor <;> simp [variantUrls]

theorem of_sameRouting (hops : ops.Gated env) (h : SameRouting ops ops') : ops'.Gated env where
  longUrl := h.longUrl ▸ hops.longUrl
  geoRules := h.geoRules ▸ hops.geoRules
  abVariants := h.abVariants ▸ hops.abVariants
  preStartUrl := h.preStartUrl ▸ hops.preStartUrl
  expiredRedirectUrl := h.expiredRedirectUrl ▸ hops.expiredRedirectUrl
  status := h.status ▸ hops.status
  dest := h.dest ▸ hops.dest

theorem checkPolicy_newUrls (hops : ops.Gated env) :
    ∀ url ∈ ops.newUrls, env.checkPolicy url = none := by
  intro url hurl
  rw [UrlOps.newUrls, mem_linkDestinationUrls] at hurl
  obtain ⟨-, hlong | hgeo | hab | hpre | hexpired⟩ := hurl
  · exact hops.longUrl url hlong
  · exact hops.geoRules url hgeo
  · exact hops.abVariants url hab
  · exact hops.preStartUrl url hpre
  · exact hops.expiredRedirectUrl url hexpired

end UrlOps.Gated

theorem handleLongUrl_gated (hops : ops.Gated env)
    (h : handleLongUrl env now request existing ops = .ok ops') :
    ops'.Gated env ∧ ops'.status = ops.status := by
  unfold handleLongUrl at h
  split at h
  · split at h
    · obtain ⟨_, hcheck, h⟩ := bind_eq_ok.1 h
      cases h
      refine ⟨{ hops with longUrl := fun url hurl => ?_ }, rfl⟩
      cases hurl
      exact checkPolicy_of_checkDestination hcheck
    · cases h
      exact ⟨hops, rfl⟩
  · cases h
    exact ⟨hops, rfl⟩

/-- An optional destination is written only after it passed the gate. -/
theorem checkPolicy_of_optionalDestination {field url : String}
    {requested current value : Option String}
    (h : optionalDestination env field requested current = .ok (some value))
    (hurl : value = some url) : env.checkPolicy url = none := by
  subst hurl
  unfold optionalDestination at h
  split at h
  · split at h <;> cases h
  · split at h
    · cases h
    · obtain ⟨_, hcheck, h⟩ := bind_eq_ok.1 h
      cases h
      exact checkPolicy_of_checkDestination hcheck

theorem handlePreStartUrl_gated (hops : ops.Gated env)
    (h : handlePreStartUrl env now request existing ops = .ok ops') :
    ops'.Gated env ∧ ops'.status = ops.status := by
  unfold handlePreStartUrl at h
  split at h
  · cases h
    exact ⟨hops, rfl⟩
  · obtain ⟨value, hvalue, h⟩ := bind_eq_ok.1 h
    split at h
    · cases h
      have hpass : ∀ url, _ = some url → env.checkPolicy url = none :=
        fun _ hurl => checkPolicy_of_optionalDestination hvalue hurl
      exact ⟨{ hops with preStartUrl := hpass }, rfl⟩
    · cases h
      exact ⟨hops, rfl⟩

theorem handleExpiredRedirectUrl_gated (hops : ops.Gated env)
    (h : handleExpiredRedirectUrl env now request existing ops = .ok ops') :
    ops'.Gated env ∧ ops'.status = ops.status := by
  unfold handleExpiredRedirectUrl at h
  split at h
  · cases h
    exact ⟨hops, rfl⟩
  · obtain ⟨value, hvalue, h⟩ := bind_eq_ok.1 h
    split at h
    · cases h
      have hpass : ∀ url, _ = some url → env.checkPolicy url = none :=
        fun _ hurl => checkPolicy_of_optionalDestination hvalue hurl
      exact ⟨{ hops with expiredRedirectUrl := hpass }, rfl⟩
    · cases h
      exact ⟨hops, rfl⟩

theorem handleGeoRules_gated (hops : ops.Gated env)
    (h : handleGeoRules env now request existing ops = .ok ops') :
    ops'.Gated env ∧ ops'.status = ops.status := by
  unfold handleGeoRules at h
  split at h
  · cases h
    exact ⟨hops, rfl⟩
  · dsimp only at h
    split at h
    · split at h
      · cases h
        exact ⟨{ hops with geoRules := by simp }, rfl⟩
      · cases h
        exact ⟨hops, rfl⟩
    · split at h
      · cases h
        exact ⟨hops, rfl⟩
      · obtain ⟨_, -, h⟩ := bind_eq_ok.1 h
        obtain ⟨_, hcheck, h⟩ := bind_eq_ok.1 h
        cases h
        exact ⟨{ hops with geoRules := checkPolicy_of_geoDestinations hcheck }, rfl⟩

theorem handleAbVariants_gated (hops : ops.Gated env)
    (h : handleAbVariants env now request existing ops = .ok ops') :
    ops'.Gated env ∧ ops'.status = ops.status := by
  unfold handleAbVariants at h
  split at h
  · cases h
    exact ⟨hops, rfl⟩
  · dsimp only at h
    split at h
    · split at h
      · cases h
        exact ⟨{ hops with abVariants := by simp [variantUrls] }, rfl⟩
      · cases h
        exact ⟨hops, rfl⟩
    · split at h
      · cases h
        exact ⟨hops, rfl⟩
      · obtain ⟨_, -, h⟩ := bind_eq_ok.1 h
        obtain ⟨_, hcheck, h⟩ := bind_eq_ok.1 h
        cases h
        exact ⟨{ hops with abVariants := checkPolicy_of_variantDestinations hcheck }, rfl⟩

/-- The status an update asks for, where it differs from the current one. -/
def wantedStatus (request : UpdateUrlRequest) (existing : UrlV2Doc) : Option UrlStatus :=
  match request.status with
  | some status =>
    if status.toUrlStatus ≠ existing.status then some status.toUrlStatus else none
  | none => none

theorem handleStatus_gated (hops : ops.Gated env)
    (h : handleStatus env now request existing ops = .ok ops') : ops'.Gated env := by
  unfold handleStatus at h
  split at h
  · rename_i status hreq
    split at h
    · cases h
      refine { hops with status := fun st hst => ?_ }
      cases hst
      cases status with
      | active => exact .inl rfl
      | inactive => exact .inr rfl
    · cases h
      exact hops
  · cases h
    exact hops

theorem status_handleStatus (hnone : ops.status = none)
    (h : handleStatus env now request existing ops = .ok ops') :
    ops'.status = wantedStatus request existing := by
  unfold handleStatus at h
  split at h
  · rename_i status hreq
    split at h
    · rename_i hne
      cases h
      simp only [wantedStatus, hreq, if_pos hne]
    · rename_i heq
      cases h
      simp only [wantedStatus, hreq, if_neg heq, hnone]
  · rename_i hreq
    cases h
    simp only [wantedStatus, hreq, hnone]

/-- The handlers that come before and after that of the status. -/
theorem fieldHandlers_eq : ∃ before after, fieldHandlers = before ++ handleStatus :: after ∧
    ∀ handler ∈ before ++ after, ∀ (env : UpdateEnv) now request existing (ops ops' : UrlOps),
      ops.Gated env → handler env now request existing ops = .ok ops' →
        ops'.Gated env ∧ ops'.status = ops.status := by
  refine ⟨fieldHandlers.take 10, fieldHandlers.drop 11, rfl, ?_⟩
  intro handler hmem env now request existing ops ops' hops h
  have routed (hsame : SameRouting ops ops') : ops'.Gated env ∧ ops'.status = ops.status :=
    ⟨hops.of_sameRouting hsame, hsame.status⟩
  simp only [fieldHandlers, List.take_succ_cons, List.take_zero, List.drop_succ_cons,
    List.drop_zero, List.cons_append, List.nil_append, List.mem_cons, List.not_mem_nil,
    or_false] at hmem
  rcases hmem with rfl | rfl | rfl | rfl | rfl | rfl | rfl | rfl | rfl | rfl | rfl | rfl | rfl |
    rfl | rfl
  · exact handleLongUrl_gated hops h
  · obtain ⟨_, rfl, -⟩ := handleAlias_writes h
    exact routed (by constructor <;> rfl)
  · obtain ⟨_, rfl⟩ := handleDomain_writes h
    exact routed (by constructor <;> rfl)
  · obtain ⟨_, rfl⟩ := handlePassword_writes h
    exact routed (by constructor <;> rfl)
  · obtain ⟨_, rfl⟩ := handleMaxClicks_writes h
    exact routed (by constructor <;> rfl)
  · obtain ⟨_, rfl⟩ := handleExpireAfter_writes h
    exact routed (by constructor <;> rfl)
  · obtain ⟨_, rfl⟩ := handleStartsAt_writes h
    exact routed (by constructor <;> rfl)
  · exact handlePreStartUrl_gated hops h
  · obtain ⟨_, rfl⟩ := handleBlockBots_writes h
    exact routed (by constructor <;> rfl)
  · obtain ⟨_, rfl⟩ := handlePrivateStats_writes h
    exact routed (by constructor <;> rfl)
  · exact handleGeoRules_gated hops h
  · obtain ⟨_, rfl⟩ := handleTagIds_writes h
    exact routed (by constructor <;> rfl)
  · exact handleAbVariants_gated hops h
  · exact handleExpiredRedirectUrl_gated hops h
  · obtain ⟨_, rfl⟩ := handleMetaTags_writes h
    exact routed (by constructor <;> rfl)

/-- What the handlers collect from a request. -/
theorem foldlM_fieldHandlers
    (h : fieldHandlers.foldlM (fun ops handler => handler env now request existing ops)
      ({} : UrlOps) = .ok ops) :
    ops.Gated env ∧ ops.status = wantedStatus request existing := by
  obtain ⟨before, after, heq, hplain⟩ := fieldHandlers_eq
  rw [heq, List.foldlM_append, bind_eq_ok] at h
  obtain ⟨ops₁, hbefore, h⟩ := h
  rw [List.foldlM_cons, bind_eq_ok] at h
  obtain ⟨ops₂, hstatus, hafter⟩ := h
  have h₁ : ops₁.Gated env ∧ ops₁.status = none := by
    refine foldlM_invariant (P := fun ops => ops.Gated env ∧ ops.status = none) ?_
      ⟨.empty env, rfl⟩ hbefore
    intro handler hmem a b ha hb
    obtain ⟨hgated, hsame⟩ :=
      hplain handler (List.mem_append_left _ hmem) env now request existing a b ha.1 hb
    exact ⟨hgated, hsame.trans ha.2⟩
  have h₂ : ops₂.Gated env ∧ ops₂.status = wantedStatus request existing :=
    ⟨handleStatus_gated h₁.1 hstatus, status_handleStatus h₁.2 hstatus⟩
  refine foldlM_invariant
    (P := fun ops => ops.Gated env ∧ ops.status = wantedStatus request existing) ?_ h₂ hafter
  intro handler hmem a b ha hb
  obtain ⟨hgated, hsame⟩ :=
    hplain handler (List.mem_append_right _ hmem) env now request existing a b ha.1 hb
  exact ⟨hgated, hsame.trans ha.2⟩

namespace UrlOps

/-- What any write of an owner does to a link: new destinations passed the gate and are stamped,
and the status becomes one an owner may ask for. -/
structure Edits (env : UpdateEnv) (existing : UrlV2Doc) (ops : UrlOps) : Prop where
  newUrls : ∀ url ∈ ops.newUrls, env.checkPolicy url = none
  status : ∀ status, ops.status = some status → status = .active ∨ status = .inactive
  dest : ops.dest = if ops.changesDestination then some (ops.stamp env.lib existing) else none

theorem Gated.edits_restamp (hops : ops.Gated env) :
    (ops.restamp env.lib existing).Edits env existing := by
  unfold restamp
  split
  · rename_i hchanges
    exact ⟨hops.checkPolicy_newUrls, hops.status, by
      have hsame : ({ ops with dest := some (ops.stamp env.lib existing) } :
        UrlOps).changesDestination = true := hchanges
      rw [if_pos hsame]
      rfl⟩
  · rename_i hsame
    exact ⟨hops.checkPolicy_newUrls, hops.status, by rw [if_neg hsame, hops.dest]⟩

theorem Edits.stampMetaIp {clientIp : Option String} (h : ops.Edits env existing) :
    (ops.stampMetaIp clientIp).Edits env existing := by
  unfold UrlOps.stampMetaIp
  split
  · exact ⟨h.newUrls, h.status, h.dest⟩
  · exact h

theorem Edits.autoReactivate (h : ops.Edits env existing) :
    (ops.autoReactivate existing now).Edits env existing := by
  unfold UrlOps.autoReactivate
  split
  · refine ⟨h.newUrls, fun status hstatus => ?_, h.dest⟩
    cases hstatus
    exact .inl rfl
  · exact h

@[simp] theorem status_restamp : (ops.restamp env.lib existing).status = ops.status := by
  unfold restamp
  split <;> rfl

@[simp] theorem status_stampMetaIp (clientIp : Option String) :
    (ops.stampMetaIp clientIp).status = ops.status := by
  unfold stampMetaIp
  split <;> rfl

end UrlOps

/-! ## From the handlers to the write -/

/-- After the handlers an update only writes the stamp, the meta-tags and the status. -/
theorem UrlOps.finish_writes (lib : UrlLib) (clientIp : Option String) :
    ∃ dest metaTags status,
      ((ops.restamp lib existing).stampMetaIp clientIp).autoReactivate existing now =
        { ops with dest, metaTags, status } := by
  unfold autoReactivate stampMetaIp restamp
  repeat' split
  all_goals exact ⟨_, _, _, rfl⟩

/-- An update writes what the handlers collected. -/
theorem buildOps_collected {clientIp : Option String}
    (h : buildOps env now request clientIp existing = .ok ops) :
    ∃ collected, fieldHandlers.foldlM (fun ops handler => handler env now request existing ops)
        ({} : UrlOps) = .ok collected ∧
      ops = ((collected.restamp env.lib existing).stampMetaIp clientIp).autoReactivate
        existing now := by
  unfold buildOps at h
  obtain ⟨collected, hcollect, h⟩ := bind_eq_ok.1 h
  refine ⟨collected, hcollect, ?_⟩
  split at h
  · obtain ⟨_, -, h⟩ := bind_eq_ok.1 h
    exact (Except.ok.inj h).symm
  · exact (Except.ok.inj h).symm

/-- A field that one handler writes, and the others and the end of the update leave alone. -/
theorem buildOps_around {γ : Type} {g : UrlOps → γ} {stage : Handler} {before after : List Handler}
    {clientIp : Option String} (hsplit : fieldHandlers = before ++ stage :: after)
    (hfinish : ∀ (ops : UrlOps) dest metaTags status, g { ops with dest, metaTags, status } = g ops)
    (hkeep : ∀ handler ∈ before ++ after, ∀ ops ops',
      handler env now request existing ops = .ok ops' → g ops' = g ops)
    (h : buildOps env now request clientIp existing = .ok ops) :
    ∃ x y, stage env now request existing x = .ok y ∧ g x = g {} ∧ g ops = g y := by
  obtain ⟨collected, hcollect, rfl⟩ := buildOps_collected h
  have hwrites : ∃ dest metaTags status, ((collected.restamp env.lib existing).stampMetaIp
      clientIp).autoReactivate existing now = { collected with dest, metaTags, status } :=
    UrlOps.finish_writes env.lib clientIp
  obtain ⟨dest, metaTags, status, hwritten⟩ := hwrites
  rw [hwritten, hfinish]
  rw [hsplit] at hcollect
  exact foldlM_around (g := g) hkeep hcollect

/-- The operations an update writes. Only an EXPIRED link gets a status the request does not
name. -/
theorem edits_buildOps {clientIp : Option String}
    (h : buildOps env now request clientIp existing = .ok ops) :
    ops.Edits env existing ∧
      (existing.status ≠ .expired → ops.status = wantedStatus request existing) := by
  obtain ⟨collected, hcollect, rfl⟩ := buildOps_collected h
  obtain ⟨hgated, hstatus⟩ := foldlM_fieldHandlers hcollect
  refine ⟨hgated.edits_restamp.stampMetaIp.autoReactivate, fun hlive => ?_⟩
  rw [UrlOps.autoReactivate, if_neg fun hexp => hlive hexp.1, UrlOps.status_stampMetaIp,
    UrlOps.status_restamp, hstatus]

/-! ## The key -/

/-- Where an update leaves the link. -/
def landingDomain (env : UpdateEnv) (request : UpdateUrlRequest) (existing : UrlV2Doc) : String :=
  match request.domain with
  | some domain => targetDomain env domain
  | none => existing.domain

/-- The checks on a key that a link is given: the alias is no reserved word of the system domain,
and it is free. -/
def UpdateEnv.KeyFree (env : UpdateEnv) (domain linkAlias : String) : Prop :=
  ¬(domain = env.systemDefaultDomain ∧ env.isReservedAlias linkAlias = true) ∧
    env.aliasAvailable linkAlias domain = true

/-- A new alias is checked where the link will land. -/
theorem handleAlias_keyFree (h : handleAlias env now request existing ops = .ok ops') :
    ops' = ops ∨ ∃ linkAlias, ops' = { ops with linkAlias := some linkAlias } ∧
      env.KeyFree (landingDomain env request existing) linkAlias := by
  have checked {newAlias scope : String}
      (h : (if scope = env.systemDefaultDomain ∧ env.isReservedAlias newAlias then
          validationError "Alias is reserved" "alias"
        else if !env.aliasAvailable newAlias scope then
          .error ⟨.conflict, "Alias is already in use", none⟩
        else .ok { ops with linkAlias := some newAlias }) = Except.ok ops') :
      ops' = { ops with linkAlias := some newAlias } ∧ env.KeyFree scope newAlias := by
    split at h
    · cases h
    · rename_i hopen
      split at h
      · cases h
      · rename_i hfree
        cases h
        exact ⟨rfl, hopen, by simpa using hfree⟩
  unfold handleAlias at h
  split at h
  · cases h
    exact .inl rfl
  · obtain ⟨newAlias, -, h⟩ := bind_eq_ok.1 h
    split at h
    · have hchecked : _ ∧ env.KeyFree (landingDomain env request existing) newAlias :=
        checked h
      exact .inr ⟨newAlias, hchecked⟩
    · cases h
      exact .inl rfl

/-- A link that moves lands on the domain that is asked for, where its alias is checked. -/
theorem handleDomain_keyFree (h : handleDomain env now request existing ops = .ok ops') :
    ops' = ops ∧ landingDomain env request existing = existing.domain ∨
      ops' = { ops with domain := some (landingDomain env request existing) } ∧
        (ops.linkAlias = none →
          env.KeyFree (landingDomain env request existing) existing.linkAlias) := by
  unfold handleDomain at h
  split at h
  · rename_i hdomain
    cases h
    exact .inl ⟨rfl, by rw [landingDomain, hdomain]⟩
  · rename_i domain hdomain
    have hlanding : landingDomain env request existing = targetDomain env domain := by
      rw [landingDomain, hdomain]
    rw [hlanding]
    dsimp only at h
    split at h
    · rename_i hsame
      cases h
      exact .inl ⟨rfl, hsame⟩
    · split at h
      · cases h
      · rename_i hopen
        split at h
        · cases h
        · rename_i hfree
          cases h
          refine .inr ⟨rfl, fun hnone => ⟨?_, ?_⟩⟩
          · rw [hnone, Option.getD_none] at hopen
            exact hopen
          · by_contra htaken
            exact hfree ⟨hnone, by simpa using htaken⟩

/-- The other handlers write neither half of the key. -/
theorem handler_keeps_key {handler : Handler} (hmem : handler ∈ fieldHandlers.drop 3)
    (h : handler env now request existing ops = .ok ops') :
    ops'.linkAlias = ops.linkAlias ∧ ops'.domain = ops.domain := by
  have hblind : handler env now { request with linkAlias := none, domain := none } existing ops =
      .ok ops' := by
    rw [← h]
    simp only [fieldHandlers, List.drop_succ_cons, List.drop_zero, List.mem_cons, List.not_mem_nil,
      or_false] at hmem
    rcases hmem with rfl | rfl | rfl | rfl | rfl | rfl | rfl | rfl | rfl | rfl | rfl | rfl | rfl <;>
      rfl
  cases handler_writes (List.mem_of_mem_drop hmem) hblind with
  | linkAlias _ named => cases named
  | domain _ named => cases named
  | _ => exact ⟨rfl, rfl⟩

/-- An update leaves the key of the link alone, or takes one that was checked. -/
theorem buildOps_key {clientIp : Option String}
    (h : buildOps env now request clientIp existing = .ok ops) :
    ops.linkAlias.getD existing.linkAlias = existing.linkAlias ∧
        ops.domain.getD existing.domain = existing.domain ∨
      env.KeyFree (ops.domain.getD existing.domain)
        (ops.linkAlias.getD existing.linkAlias) := by
  obtain ⟨collected, hcollect, rfl⟩ := buildOps_collected h
  have hwrites : ∃ dest metaTags status,
      ((collected.restamp env.lib existing).stampMetaIp clientIp).autoReactivate existing now =
        { collected with dest, metaTags, status } := UrlOps.finish_writes env.lib clientIp
  obtain ⟨dest, metaTags, status, hfinish⟩ := hwrites
  rw [hfinish]
  show collected.linkAlias.getD existing.linkAlias = existing.linkAlias ∧
      collected.domain.getD existing.domain = existing.domain ∨
    env.KeyFree (collected.domain.getD existing.domain)
      (collected.linkAlias.getD existing.linkAlias)
  have hsplit : fieldHandlers =
      handleLongUrl :: handleAlias :: handleDomain :: fieldHandlers.drop 3 := rfl
  rw [hsplit, List.foldlM_cons, bind_eq_ok] at hcollect
  obtain ⟨ops₁, hlong, hcollect⟩ := hcollect
  rw [List.foldlM_cons, bind_eq_ok] at hcollect
  obtain ⟨ops₂, halias, hcollect⟩ := hcollect
  rw [List.foldlM_cons, bind_eq_ok] at hcollect
  obtain ⟨ops₃, hdomain, hcollect⟩ := hcollect
  obtain ⟨longUrl, rfl⟩ := handleLongUrl_writes hlong
  have hrest : collected.linkAlias = ops₃.linkAlias ∧ collected.domain = ops₃.domain :=
    foldlM_invariant (P := fun ops : UrlOps => ops.linkAlias = ops₃.linkAlias ∧
        ops.domain = ops₃.domain)
      (fun handler hmem a b ha hb => by
        obtain ⟨hl, hd⟩ := handler_keeps_key hmem hb
        exact ⟨hl.trans ha.1, hd.trans ha.2⟩)
      ⟨rfl, rfl⟩ hcollect
  rw [hrest.1, hrest.2]
  rcases handleAlias_keyFree halias with rfl | ⟨linkAlias, rfl, hfree⟩
  · rcases handleDomain_keyFree hdomain with ⟨rfl, -⟩ | ⟨rfl, hfree⟩
    · exact .inl ⟨rfl, rfl⟩
    · exact .inr (hfree rfl)
  · rcases handleDomain_keyFree hdomain with ⟨rfl, hsame⟩ | ⟨rfl, -⟩
    · rw [hsame] at hfree
      exact .inr hfree
    · exact .inr hfree

end Spoo
