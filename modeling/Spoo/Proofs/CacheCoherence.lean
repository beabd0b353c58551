import Spoo.Proofs.Eviction
import Spoo.Proofs.PublicDispatch
import Spoo.Services.UrlService.Resolve

/-!
# Coherence of the redirect cache

A resolve caches the document it read a moment ago, and an operation that changes a link clears the
entry under the alias and the domain it knows the link by. An entry stays wrong where the resolve
comes last, and where the link has moved on from the code that is cleared.
-/

namespace Spoo

open Interleave Mongo Mongo.Collection UrlRepository

/-! ## Copies and documents -/

/-- The entries of the redirect cache, as copies under their Redis keys. -/
def Stores.cached (s : Stores) (key : String) : Option UrlCacheData := s.cache.entries key

/-- What a link is cached as. -/
def UrlRow.projection (row : UrlRow) : UrlCacheData := .fromV2Doc (.fromMongo row)

/-- The key a link is cached under. -/
def UrlRow.redisKey (row : UrlRow) : String := UrlCache.key row.linkAlias row.domain

section

variable (readers : LegacyReaders) (systemDomain : String)

/-- The entry is what a document that is stored under the key is projected to. -/
def IsStored (s : Stores) (key : String) (data : UrlCacheData) : Prop :=
  (∃ row ∈ s.urls.docs, row.redisKey = key ∧ row.projection = data) ∨
  ∃ row ∈ s.legacy.docs, UrlCache.key row.code systemDomain = key ∧
    UrlService.projection readers systemDomain (.v1 row) = some data

/-- A move leaves only entries of stored documents behind, but under keys that are `safe`. -/
abbrev LeavesStored (safe : String → Prop) (s s' : Stores) : Prop :=
  Leaves Stores.cached (IsStored readers systemDomain) safe s s'

end

/-! ## Who moves -/

/-- The operations that read and write a link and its entry in the redirect cache. -/
inductive CacheParty where
  | resolve (rawCode scope : String) (now : Int)
  | update (env : UpdateEnv) (edge : EdgeConfig) (urlId : ObjectId) (request : UpdateUrlRequest)
      (ownerId : ObjectId) (clientIp : Option String) (now : Int)
  | delete (edge : EdgeConfig) (urlId ownerId : ObjectId)
  | safety (edgeEnabled : Bool) (block : Block)

/-- The enforcer of the deployment. -/
def DispatchConfig.enforcer (cfg : DispatchConfig) (edgeEnabled : Bool) : EnforcerConfig where
  systemDefaultDomain := cfg.systemDefaultDomain
  edgeEnabled
  v2LookupCode := v2LookupCode cfg.lib

namespace CacheParty

def Vars : CacheParty → Type
  | .resolve .. => UrlService.ResolveVars
  | .update .. | .delete .. => OwnerVars
  | .safety .. => EnforcerVars

variable (cfg : DispatchConfig) (readers : LegacyReaders)

/-- The calls of the operation, from its initial variables. -/
def process : (party : CacheParty) → Process party.Vars Stores
  | .resolve rawCode scope now =>
    (⟨{}, UrlService.resolveCalls cfg readers rawCode scope now⟩ :
      Process UrlService.ResolveVars Stores)
  | .update env edge urlId request ownerId clientIp now =>
    (⟨{}, UrlService.updateCalls env edge urlId request ownerId clientIp now⟩ :
      Process OwnerVars Stores)
  | .delete edge urlId ownerId =>
    (⟨{}, UrlService.deleteCalls edge urlId ownerId⟩ : Process OwnerVars Stores)
  | .safety edgeEnabled block =>
    (⟨{}, block.calls (cfg.enforcer edgeEnabled)⟩ : Process EnforcerVars Stores)

/-- What is left to do are the last calls of the operation. -/
def Underway (party : CacheParty) (p : Process party.Vars Stores) : Prop :=
  p.todo <:+ (party.process cfg readers).todo

/-- A resolve is about to cache what is stored, or an entry that an operation will clear; and if it
is about to flip the link, it clears the code that the link is under. -/
def ResolveCareful (rawCode : String) (now : Int) (exposed awaited : String → Prop) (s : Stores)
    (p : Process UrlService.ResolveVars Stores) : Prop :=
  let shortCode := v2LookupCode cfg.lib rawCode
  (p.todo.length = 4 → p.vars.cached = false → ∀ data ∈ p.vars.data,
    (data.schemaVersion = "v2" ∨ data.schemaVersion = "v1" ∧ data.maxClicks = none) →
      IsStored readers cfg.systemDefaultDomain s (UrlCache.key shortCode data.domain) data ∨
        awaited (UrlCache.key shortCode data.domain)) ∧
  (p.todo.length = 3 → ∀ data ∈ p.vars.data, ∀ urlId ∈ UrlService.expiredLink data now,
    ∀ row ∈ s.urls.lookup urlId, (timeReachedFilter urlId now).Matches row = true →
      exposed row.redisKey → (row.linkAlias, row.domain) = (shortCode, data.domain))

/-- An update that is about to change what an exposed link is cached as has read the link under
the code it has now. -/
def UpdateCareful (urlId : ObjectId) (exposed : String → Prop) (s : Stores)
    (p : Process OwnerVars Stores) : Prop :=
  p.todo.length = 3 → ∀ decision ∈ p.vars.pending, ∀ row ∈ s.urls.lookup urlId,
    (decision.2.toUpdate.apply row).projection ≠ row.projection → exposed row.redisKey →
      (row.linkAlias, row.domain) = (decision.1.linkAlias, decision.1.domain)

/-- A deletion likewise. -/
def DeleteCareful (urlId : ObjectId) (exposed : String → Prop) (s : Stores)
    (p : Process OwnerVars Stores) : Prop :=
  p.todo.length = 3 → ∀ decision ∈ p.vars.pending, ∀ row ∈ s.urls.lookup urlId,
    exposed row.redisKey →
      (row.linkAlias, row.domain) = (decision.1.linkAlias, decision.1.domain)

/-- A block has listed each exposed link that it is about to block. -/
def BlockCareful (edgeEnabled : Bool) (block : Block) (exposed : String → Prop) (s : Stores)
    (p : Process EnforcerVars Stores) : Prop :=
  let enforcer := cfg.enforcer edgeEnabled
  (p.todo.length + block.reads = (block.calls enforcer).length → ∀ row ∈ s.urls.docs,
    block.Matches p.vars row → exposed row.redisKey →
      block.Evicts enforcer p.vars row.linkAlias row.domain) ∧
  (p.todo.length + block.reads + 1 = (block.calls enforcer).length → ∀ row ∈ s.legacy.docs,
    block.MatchesLegacy p.vars row → exposed (UrlCache.key row.code cfg.systemDefaultDomain) →
      block.Evicts enforcer p.vars row.code cfg.systemDefaultDomain)

/-- The operation is careful about its next move. -/
def Careful (exposed awaited : String → Prop) (s : Stores) :
    (party : CacheParty) → Process party.Vars Stores → Prop
  | .resolve rawCode _ now, p => ResolveCareful cfg readers rawCode now exposed awaited s p
  | .update _ _ urlId _ _ _ _, p => UpdateCareful urlId exposed s p
  | .delete _ urlId _, p => DeleteCareful urlId exposed s p
  | .safety edgeEnabled block, p => BlockCareful cfg edgeEnabled block exposed s p

end CacheParty

/-! ## What a move leaves -/

section

variable {readers : LegacyReaders} {systemDomain : String} {s s' : Stores}

theorem leavesStored_of_same {safe : String → Prop} (hurls : s'.urls = s.urls)
    (hlegacy : s'.legacy = s.legacy)
    (hcache : ∀ key data, s'.cached key = some data → s.cached key = some data) :
    LeavesStored readers systemDomain safe s s' := by
  refine .of_clears hcache fun key data hstored => ?_
  unfold IsStored at hstored ⊢
  rw [hurls, hlegacy]
  exact hstored

theorem UrlRow.redisKey_of_projection {row row' : UrlRow}
    (h : row'.projection = row.projection) : row'.redisKey = row.redisKey := by
  have halias : row'.linkAlias = row.linkAlias := congrArg UrlCacheData.linkAlias h
  have hdomain : row'.domain = row.domain := congrArg UrlCacheData.domain h
  rw [redisKey, redisKey, halias, hdomain]

/-- A write to the v2 links alone. -/
theorem leavesStored_of_urls {safe : String → Prop} {urls : UrlStore}
    (h : ∀ row ∈ s.urls.docs, (∃ row' ∈ urls.docs, row'.projection = row.projection) ∨
      safe row.redisKey) :
    LeavesStored readers systemDomain safe s { s with urls } where
  written _ _ h := .inl h
  kept := by
    rintro _ _ (⟨row, hrow, rfl, rfl⟩ | hlegacy)
    · refine (h row hrow).imp (fun hkept => .inl ?_) id
      obtain ⟨row', hrow', hsame⟩ := hkept
      exact ⟨row', hrow', UrlRow.redisKey_of_projection hsame, hsame⟩
    · exact .inl (.inr hlegacy)

end

/-! ### An owner's method -/

namespace UrlService

variable {existing : UrlV2Doc} {ops : UrlOps} {v : OwnerVars} {s : Stores} {edge : EdgeConfig}
  {now : Int}

/-- The key the document was read under is cleared. -/
theorem cached_invalidateKeys_self (hpending : v.pending = some (existing, ops)) :
    (invalidateKeys v s).2.cached (UrlCache.key existing.linkAlias existing.domain) = none := by
  unfold invalidateKeys onPending
  rw [hpending]
  dsimp only
  split <;> simp [Stores.cached, UrlCache.invalidate]

theorem cached_invalidateKeys {key : String} {data : UrlCacheData}
    (h : (invalidateKeys v s).2.cached key = some data) : s.cached key = some data := by
  unfold invalidateKeys onPending at h
  split at h
  · dsimp only at h
    split at h
    · exact (UrlCache.entries_invalidate_eq_some.1 (UrlCache.entries_invalidate_eq_some.1 h).2).2
    · exact (UrlCache.entries_invalidate_eq_some.1 h).2
  · exact h

theorem legacy_invalidateKeys : (invalidateKeys v s).2.legacy = s.legacy := by
  unfold invalidateKeys onPending
  split
  · dsimp only
    split <;> rfl
  · rfl

theorem frames_reconcileEdge : (reconcileEdge edge now v s).2.legacy = s.legacy ∧
    (reconcileEdge edge now v s).2.cache = s.cache := by
  unfold reconcileEdge onPending
  split <;> exact ⟨rfl, rfl⟩

theorem frames_dropEdge : (dropEdge edge v s).2.legacy = s.legacy ∧
    (dropEdge edge v s).2.cache = s.cache := by
  unfold dropEdge onPending
  split
  · dsimp only
    split <;> exact ⟨rfl, rfl⟩
  · exact ⟨rfl, rfl⟩

end UrlService

namespace CacheParty

variable {cfg : DispatchConfig} {readers : LegacyReaders} {exposed awaited safe : String → Prop}
  {s : Stores}

/-- The link is under a code that will be cleared, or its own code is not exposed. -/
theorem safe_redisKey {row : UrlRow} {linkAlias domain : String}
    (hcode : exposed row.redisKey → (row.linkAlias, row.domain) = (linkAlias, domain))
    (hcleared : safe (UrlCache.key linkAlias domain))
    (hexposed : ¬exposed row.redisKey → safe row.redisKey) : safe row.redisKey := by
  by_cases hshown : exposed row.redisKey
  · obtain ⟨halias, hdomain⟩ := Prod.mk.inj (hcode hshown)
    rw [UrlRow.redisKey, halias, hdomain]
    exact hcleared
  · exact hexposed hshown

section

variable {p : Process OwnerVars Stores} {edge : EdgeConfig} {urlId ownerId : ObjectId}

/-- The write of an update, before the calls that clear the keys. -/
theorem writeUpdate_leavesStored {v : OwnerVars} {now : Int}
    (hcareful : ∀ decision ∈ v.pending, ∀ row ∈ s.urls.lookup urlId,
      (decision.2.toUpdate.apply row).projection ≠ row.projection → exposed row.redisKey →
        (row.linkAlias, row.domain) = (decision.1.linkAlias, decision.1.domain))
    (hsafe : SafeAfter Stores.cached exposed awaited safe ⟨v, [UrlService.writeUpdate urlId,
      UrlService.invalidateKeys, UrlService.reconcileEdge edge now]⟩ s) :
    LeavesStored readers cfg.systemDefaultDomain safe s (UrlService.writeUpdate urlId v s).2 := by
  rcases UrlService.writeUpdate_cases v with ⟨hsame, -⟩ | ⟨existing, ops, urls, hpending, hwrite, hstep⟩
  · exact .of_eq hsame
  · rw [hstep]
    refine leavesStored_of_urls fun row hrow => ?_
    have hwritten : applyWhere (idFilter urlId).Matches ops.toUpdate row ∈ urls.docs := by
      rw [docs_updateManyUnique hwrite]
      exact List.mem_map_of_mem hrow
    by_cases hid : row.id = urlId
    · rw [applyWhere_of_matches _ (by simp [hid])] at hwritten
      by_cases hsame : (ops.toUpdate.apply row).projection = row.projection
      · exact .inl ⟨_, hwritten, hsame⟩
      · have hcode := hcareful _ hpending row (lookup_eq_some_iff.2 ⟨hrow, hid⟩) hsame
        refine .inr (safe_redisKey hcode (hsafe.of_clears ?_) (hsafe.of_hidden · ?_))
        · rw [hstep]
          exact clears_head fun _ => UrlService.cached_invalidateKeys_self hpending
        · rw [hstep]
          exact fun _ h => h
    · rw [applyWhere_of_not_matches _ (by simp [hid])] at hwritten
      exact .inl ⟨row, hwritten, rfl⟩

theorem UpdateCareful.leavesStored {env : UpdateEnv} {request : UpdateUrlRequest}
    {clientIp : Option String} {now : Int}
    (hunder : p.todo <:+ UrlService.updateCalls env edge urlId request ownerId clientIp now)
    (hcareful : UpdateCareful urlId exposed s p)
    (hsafe : SafeAfter Stores.cached exposed awaited safe p s) :
    LeavesStored readers cfg.systemDefaultDomain safe s (p.step s).2 := by
  obtain ⟨v, todo⟩ := p
  simp only [UrlService.updateCalls, List.suffix_cons_iff, List.suffix_nil] at hunder
  rcases hunder with rfl | rfl | rfl | rfl | rfl
  · exact .of_eq (UrlService.readForUpdate_stores v)
  · exact writeUpdate_leavesStored (hcareful rfl) hsafe
  · exact leavesStored_of_same (UrlService.urls_invalidateKeys v s) UrlService.legacy_invalidateKeys
      fun _ _ => UrlService.cached_invalidateKeys
  · have hframes : (UrlService.reconcileEdge edge now v s).2.legacy = s.legacy ∧ _ :=
      UrlService.frames_reconcileEdge
    exact leavesStored_of_same (UrlService.urls_reconcileEdge edge now v s) hframes.1
      fun _ _ h => (congrArg (fun c => UrlCache.entries c _) hframes.2).symm.trans h
  · exact leavesStored_of_same rfl rfl fun _ _ h => h

/-- The write of a deletion. -/
theorem writeDelete_leavesStored {v : OwnerVars}
    (hcareful : ∀ decision ∈ v.pending, ∀ row ∈ s.urls.lookup urlId, exposed row.redisKey →
      (row.linkAlias, row.domain) = (decision.1.linkAlias, decision.1.domain))
    (hsafe : SafeAfter Stores.cached exposed awaited safe ⟨v, [UrlService.writeDelete urlId,
      UrlService.invalidateKeys, UrlService.dropEdge edge]⟩ s) :
    LeavesStored readers cfg.systemDefaultDomain safe s (UrlService.writeDelete urlId v s).2 := by
  rcases UrlService.writeDelete_cases v with hsame | ⟨existing, ops, hpending, hstep⟩
  · exact .of_eq (congrArg Prod.snd hsame)
  · rw [hstep]
    refine leavesStored_of_urls fun row hrow => ?_
    by_cases hid : row.id = urlId
    · have hcode := hcareful _ hpending row (lookup_eq_some_iff.2 ⟨hrow, hid⟩)
      refine .inr (safe_redisKey hcode (hsafe.of_clears ?_) (hsafe.of_hidden · ?_))
      · rw [hstep]
        exact clears_head fun _ => UrlService.cached_invalidateKeys_self hpending
      · rw [hstep]
        exact fun _ h => h
    · refine .inl ⟨row, ?_, rfl⟩
      simp [UrlRepository.delete, deleteMany, hrow, hid]

theorem DeleteCareful.leavesStored
    (hunder : p.todo <:+ UrlService.deleteCalls edge urlId ownerId)
    (hcareful : DeleteCareful urlId exposed s p)
    (hsafe : SafeAfter Stores.cached exposed awaited safe p s) :
    LeavesStored readers cfg.systemDefaultDomain safe s (p.step s).2 := by
  obtain ⟨v, todo⟩ := p
  simp only [UrlService.deleteCalls, List.suffix_cons_iff, List.suffix_nil] at hunder
  rcases hunder with rfl | rfl | rfl | rfl | rfl
  · exact .of_eq UrlService.readForDelete_stores
  · exact writeDelete_leavesStored (hcareful rfl) hsafe
  · exact leavesStored_of_same (UrlService.urls_invalidateKeys v s) UrlService.legacy_invalidateKeys
      fun _ _ => UrlService.cached_invalidateKeys
  · have hframes : (UrlService.dropEdge edge v s).2.legacy = s.legacy ∧ _ :=
      UrlService.frames_dropEdge
    exact leavesStored_of_same (UrlService.urls_dropEdge edge v s) hframes.1
      fun _ _ h => (congrArg (fun c => UrlCache.entries c _) hframes.2).symm.trans h
  · exact leavesStored_of_same rfl rfl fun _ _ h => h

end

/-! ### A resolve -/

section

variable {p : Process UrlService.ResolveVars Stores} {v : UrlService.ResolveVars}
  {rawCode scope shortCode : String} {now : Int}

theorem populate_leavesStored
    (hcareful : v.cached = false → ∀ data ∈ v.data,
      (data.schemaVersion = "v2" ∨ data.schemaVersion = "v1" ∧ data.maxClicks = none) →
        IsStored readers cfg.systemDefaultDomain s (UrlCache.key shortCode data.domain) data ∨
          awaited (UrlCache.key shortCode data.domain))
    (hawaited : ∀ key, awaited key → safe key) :
    LeavesStored readers cfg.systemDefaultDomain safe s
      (UrlService.populateCall shortCode v s).2 := by
  cases hdata : v.data with
  | none => exact .of_eq (by simp [UrlService.populateCall, hdata])
  | some data =>
    cases hcached : v.cached with
    | true => exact .of_eq (by simp [UrlService.populateCall, hdata, hcached])
    | false =>
      simp only [UrlService.populateCall, hdata, hcached, Bool.false_eq_true, if_false,
        UrlService.populate]
      split
      · rename_i hcacheable
        have hstored := hcareful hcached data hdata hcacheable
        refine ⟨fun key found hfound => ?_, fun _ _ hright => .inl hright⟩
        simp only [Stores.cached, UrlService.populateCache, UrlCache.set] at hfound
        split at hfound
        · rename_i hkey
          cases hfound
          rw [hkey]
          exact .inr (hstored.imp id (hawaited _))
        · exact .inl hfound
      · exact .of_eq rfl

/-- The flip of an expired link is reported. -/
theorem flipped_expireIfTimeReached {urlId : ObjectId} {row : UrlRow} (hrow : row ∈ s.urls.docs)
    (hmatch : (timeReachedFilter urlId now).Matches row = true) :
    (expireIfTimeReached s.urls urlId now).2 = true := by
  have hactive : row.status = .active := by
    simp only [matches_timeReachedFilter, Bool.and_eq_true, decide_eq_true_eq] at hmatch
    exact hmatch.2.1
  have hchanged : setExpired.apply row ≠ row := by
    intro hsame
    have hstatus : UrlStatus.expired = row.status := congrArg UrlRow.status hsame
    rw [hactive] at hstatus
    cases hstatus
  refine decide_eq_true (List.countP_pos_iff.2 ⟨row, hrow, ?_⟩)
  simp [hmatch, hchanged]

theorem expire_leavesStored
    (hcareful : ∀ data ∈ v.data, ∀ urlId ∈ UrlService.expiredLink data now,
      ∀ row ∈ s.urls.lookup urlId, (timeReachedFilter urlId now).Matches row = true →
        exposed row.redisKey → (row.linkAlias, row.domain) = (shortCode, data.domain))
    (hsafe : SafeAfter Stores.cached exposed awaited safe ⟨v,
      [UrlService.expireCall shortCode now, UrlService.expiredInvalidateCall shortCode,
        UrlService.expiredEmitCall]⟩ s) :
    LeavesStored readers cfg.systemDefaultDomain safe s
      (UrlService.expireCall shortCode now v s).2 := by
  cases hdata : v.data with
  | none => exact .of_eq (by simp [UrlService.expireCall, hdata])
  | some data =>
    cases hrefusal : UrlService.refusalOf data v.cached with
    | some refusal => exact .of_eq (by simp [UrlService.expireCall, hdata, hrefusal])
    | none =>
      cases hlink : UrlService.expiredLink data now with
      | none => exact .of_eq (by simp [UrlService.expireCall, hdata, hrefusal, hlink])
      | some urlId =>
        have hstep : UrlService.expireCall shortCode now v s =
            ({ v with
              outcome := some (UrlService.checkTimes data shortCode now s).1
              flipped := (expireIfTimeReached s.urls urlId now).2 },
            { s with urls := (expireIfTimeReached s.urls urlId now).1 }) := by
          simp [UrlService.expireCall, hdata, hrefusal, hlink]
        rw [hstep]
        refine leavesStored_of_urls fun row hrow => ?_
        have hwritten : applyWhere (timeReachedFilter urlId now).Matches setExpired.toUpdate row ∈
            (expireIfTimeReached s.urls urlId now).1.docs := List.mem_map_of_mem hrow
        cases hmatch : (timeReachedFilter urlId now).Matches row with
        | false =>
          rw [applyWhere_of_not_matches _ hmatch] at hwritten
          exact .inl ⟨row, hwritten, rfl⟩
        | true =>
          have hid : row.id = urlId := by
            simp only [matches_timeReachedFilter, Bool.and_eq_true, decide_eq_true_eq] at hmatch
            exact hmatch.1
          have hcode := hcareful data hdata urlId hlink row
            (lookup_eq_some_iff.2 ⟨hrow, hid⟩) hmatch
          refine .inr (safe_redisKey hcode (hsafe.of_clears ?_) (hsafe.of_hidden · ?_))
          · refine clears_head fun s' => ?_
            simp [hstep, UrlService.expiredInvalidateCall, hdata, Stores.cached,
              flipped_expireIfTimeReached hrow hmatch, UrlCache.invalidate]
          · rw [hstep]
            exact fun _ h => h

theorem ResolveCareful.leavesStored
    (hunder : p.todo <:+ UrlService.resolveCalls cfg readers rawCode scope now)
    (hcareful : ResolveCareful cfg readers rawCode now exposed awaited s p)
    (hsafe : SafeAfter Stores.cached exposed awaited safe p s) :
    LeavesStored readers cfg.systemDefaultDomain safe s (p.step s).2 := by
  obtain ⟨v, todo⟩ := p
  simp only [UrlService.resolveCalls, List.suffix_cons_iff, List.suffix_nil] at hunder
  rcases hunder with rfl | rfl | rfl | rfl | rfl | rfl | rfl
  · refine .of_eq ?_
    simp only [Process.step, UrlService.lookupCall]
    split <;> rfl
  · refine .of_eq ?_
    simp only [Process.step, UrlService.dispatchCall]
    split
    · rfl
    · split
      · rfl
      · split <;> rfl
  · exact populate_leavesStored (hcareful.1 rfl) hsafe.awaited
  · exact expire_leavesStored (hcareful.2 rfl) hsafe
  · simp only [Process.step, UrlService.expiredInvalidateCall]
    split
    · split
      · exact leavesStored_of_same rfl rfl fun _ _ h => (UrlCache.entries_invalidate_eq_some.1 h).2
      · exact .of_eq rfl
    · exact .of_eq rfl
  · simp only [Process.step, UrlService.expiredEmitCall]
    split
    · split
      · exact leavesStored_of_same rfl rfl fun _ _ h => h
      · exact .of_eq rfl
    · exact .of_eq rfl
  · exact .of_eq rfl

end

/-! ### A block -/

section

variable {p : Process EnforcerVars Stores} {v : EnforcerVars} {block : Block} {edgeEnabled : Bool}

/-- An eviction leaves no entry of a link it reaches. -/
theorem cached_evict_eq_none {enforcer : EnforcerConfig} {pairs : List (String × String)}
    {codes : List String} {linkAlias domain : String}
    (h : SafetyEnforcer.Evicts enforcer pairs codes linkAlias domain) :
    (SafetyEnforcer.evict enforcer pairs codes v s).2.cached (UrlCache.key linkAlias domain) =
      none := by
  refine Option.eq_none_iff_forall_ne_some.2 fun data hdata => ?_
  exact (SafetyEnforcer.cached_evict hdata).2 linkAlias domain h rfl

theorem BlockCareful.leavesStored
    (hunder : p.todo <:+ block.calls (cfg.enforcer edgeEnabled))
    (hcareful : BlockCareful cfg edgeEnabled block exposed s p)
    (hsafe : SafeAfter Stores.cached exposed awaited safe p s) :
    LeavesStored readers cfg.systemDefaultDomain safe s (p.step s).2 := by
  have evicted {linkAlias domain : String} (hclears : ∀ {κ α : Type}
      {copy : Stores → κ → Option α} {key : κ}, (∀ v s,
        copy (SafetyEnforcer.evict (cfg.enforcer edgeEnabled) (block.evictedPairs p.vars)
          (block.evictedCodes (cfg.enforcer edgeEnabled) p.vars) v s).2 key = none) →
        (p.step s).1.Clears copy key)
      (h : block.Evicts (cfg.enforcer edgeEnabled) p.vars linkAlias domain) :
      safe (UrlCache.key linkAlias domain) :=
    hsafe.clears _ (hclears fun _ _ => cached_evict_eq_none h)
  cases Block.move_of_suffix s hunder with
  | quiet hurls hlegacy hcache _ => exact leavesStored_of_same hurls hlegacy hcache
  | flips hturn hstep hclears =>
    have hidden (key : String) (hhidden : ¬exposed key) : safe key :=
      hsafe.hidden key hhidden fun _ h => by rwa [hstep] at h
    rw [hstep]
    refine leavesStored_of_urls fun row hrow => ?_
    by_cases hmatch : block.Matches p.vars row
    · by_cases hshown : exposed row.redisKey
      · exact .inr (evicted hclears (hcareful.1 hturn row hrow hmatch hshown))
      · exact .inr (hidden _ hshown)
    · obtain ⟨causes, hflip⟩ := Block.flipRow_of_not_matches hmatch
      refine .inl ⟨block.flipRow p.vars row, ?_, by rw [hflip]; rfl⟩
      rw [Block.docs_flip]
      exact List.mem_map_of_mem hrow
  | flipsLegacy hturn hstep hdocs hclears =>
    have hidden (key : String) (hhidden : ¬exposed key) : safe key :=
      hsafe.hidden key hhidden fun _ h => by rwa [hstep] at h
    rw [hstep]
    refine ⟨fun _ _ h => .inl h, ?_⟩
    rintro _ _ (hstored | ⟨row, hrow, rfl, hproj⟩)
    · exact .inl (.inl hstored)
    · by_cases hmatch : block.MatchesLegacy p.vars row
      · by_cases hshown : exposed (UrlCache.key row.code cfg.systemDefaultDomain)
        · exact .inr (evicted hclears (hcareful.2 hturn row hrow hmatch hshown))
        · exact .inr (hidden _ hshown)
      · exact .inl (.inr ⟨row, hdocs row hrow hmatch, rfl, hproj⟩)

end

/-- A careful move leaves no entry wrong that nobody clears. -/
theorem Careful.leavesStored {party : CacheParty} {p : Process party.Vars Stores}
    (hunder : party.Underway cfg readers p)
    (hcareful : party.Careful cfg readers exposed awaited s p)
    (hsafe : SafeAfter Stores.cached exposed awaited safe p s) :
    LeavesStored readers cfg.systemDefaultDomain safe s (p.step s).2 := by
  cases party with
  | resolve rawCode scope now =>
    exact ResolveCareful.leavesStored hunder hcareful hsafe
  | update env edge urlId request ownerId clientIp now =>
    exact UpdateCareful.leavesStored hunder hcareful hsafe
  | delete edge urlId ownerId =>
    exact DeleteCareful.leavesStored hunder hcareful hsafe
  | safety edgeEnabled block =>
    exact BlockCareful.leavesStored hunder hcareful hsafe

end CacheParty

/-! ## Runs -/

/-- The operations, none of which has begun. -/
def cacheRace {ι : Type} (cfg : DispatchConfig) (readers : LegacyReaders)
    (parties : ι → CacheParty) (s : Stores) : System (fun i => (parties i).Vars) Stores where
  procs i := (parties i).process cfg readers
  shared := s

/-- Every entry of the redirect cache is what a document stored under its key is projected to. -/
def CacheCoherent (readers : LegacyReaders) (systemDomain : String) (s : Stores) : Prop :=
  ∀ linkAlias domain data, s.cache.get linkAlias domain = some data →
    IsStored readers systemDomain s (UrlCache.key linkAlias domain) data

/-- Resolves, updates, deletions and blocks run interleaved. While every resolve caches what is
stored, and every write finds a link under the code that its operation clears, unless the entry is
not there or will be cleared by another operation, the cache is coherent once all have finished. -/
theorem cache_coherent_of_careful {ι : Type} [DecidableEq ι] (cfg : DispatchConfig)
    (readers : LegacyReaders) (parties : ι → CacheParty) (s : Stores) (schedule : List ι)
    (hstart : ∀ key data, s.cached key = some data →
      IsStored readers cfg.systemDefaultDomain s key data)
    (hcareful : Run.Guarded System.step (fun sys i =>
        (parties i).Careful cfg readers (sys.Exposed Stores.cached) (sys.Awaits Stores.cached)
          sys.shared (sys.procs i))
      (cacheRace cfg readers parties s) schedule)
    (hfinished : ((cacheRace cfg readers parties s).run schedule).Finished) :
    CacheCoherent readers cfg.systemDefaultDomain
      ((cacheRace cfg readers parties s).run schedule).shared := by
  have hunder : ∀ i, (parties i).Underway cfg readers
      ((cacheRace cfg readers parties s).procs i) := fun i => List.suffix_rfl
  have hsettled : (cacheRace cfg readers parties s).Settled Stores.cached
      (IsStored readers cfg.systemDefaultDomain) :=
    fun key data hdata => .inl (hstart key data hdata)
  have hrun := hsettled.run (L := fun i => (parties i).Underway cfg readers)
    (fun i p s hp => (p.todo_step_suffix s).trans hp)
    (fun _ _ _ _ _ _ hp hmay hsafe => CacheParty.Careful.leavesStored hp hmay hsafe) hunder hcareful
  exact fun linkAlias domain data hdata => hrun.right_of_finished hfinished hdata

/-- A visit of the owner's link, and another operation on it. -/
def visitAnd (other : CacheParty) : Bool → CacheParty
  | false => .resolve "aaa" "spoo.me" 0
  | true => other

/-- The operations on the owner's link, with an empty cache. -/
def ownedRace {ι : Type} (parties : ι → CacheParty) : System (fun i => (parties i).Vars) Stores :=
  cacheRace plainDispatch plainReaders parties ownedStores

/-- The visit beside an update of the owner. -/
def visitAndUpdate : Bool → CacheParty :=
  visitAnd (.update openEnv plainEdge 1 { longUrl := some "https://b.example/" } 7 none 0)

/-- The update reads, the visit runs, the update writes and clears. -/
def visitInside : List Bool :=
  [true, false, false, false, false, false, false, true, true, true]

theorem cached_ownedStores (key : String) (data : UrlCacheData)
    (h : ownedStores.cached key = some data) :
    IsStored plainReaders "spoo.me" ownedStores key data := by
  cases h

/-- The visit caches what is stored, and the update finds the link where it read it. -/
theorem careful_visitInside : Run.Guarded System.step (fun sys i =>
      (visitAndUpdate i).Careful plainDispatch plainReaders (sys.Exposed Stores.cached)
        (sys.Awaits Stores.cached) sys.shared (sys.procs i))
    (ownedRace visitAndUpdate) visitInside := by
  have idle {n m : Nat} {P : Prop} (h : n ≠ m) (hn : n = m) : P := absurd hn h
  have hread : ∀ decision ∈ (((ownedRace visitAndUpdate).run (visitInside.take 7)).procs
      true).vars.pending, ("aaa", "spoo.me") = (decision.1.linkAlias, decision.1.domain) := by
    decide +kernel
  refine ⟨idle (by decide), ⟨idle (by decide), idle (by decide)⟩,
    ⟨idle (by decide), idle (by decide)⟩, ⟨fun _ _ data hdata _ => ?_, idle (by decide)⟩,
    ⟨idle (by decide), fun _ data hdata urlId hurlId => ?_⟩, ⟨idle (by decide), idle (by decide)⟩,
    ⟨idle (by decide), idle (by decide)⟩, fun _ decision hdecision row hrow _ _ => ?_,
    idle (by decide), idle (by decide), trivial⟩
  · cases (show some ownedLink.projection = some data from hdata)
    exact .inl (.inl ⟨ownedLink, List.mem_singleton.2 rfl, rfl, rfl⟩)
  · cases (show some ownedLink.projection = some data from hdata)
    cases (show none = some urlId from hurlId)
  · cases (show some ownedLink = some row from hrow)
    exact hread decision hdecision

theorem cache_coherent_of_careful_visitInside :
    CacheCoherent plainReaders "spoo.me"
      ((ownedRace visitAndUpdate).run visitInside).shared :=
  cache_coherent_of_careful plainDispatch plainReaders visitAndUpdate ownedStores visitInside
    cached_ownedStores careful_visitInside fun i => by cases i <;> rfl

/-- The visit beside a block of the host. -/
def visitAndBlock : Bool → CacheParty :=
  visitAnd (.safety false (.onHost "a.example" "phishing" 0))

/-- The visit reads the link, the block runs, the visit caches what it read. -/
def blockInside : List Bool := [
  false, false,
  true, true, true, true, true, true, true, true, true,
  false, false, false, false]

/-- A visit of the code that the link is renamed to, the renaming, and an edit. -/
def visitAndEdits : Fin 3 → CacheParty
  | 0 => .resolve "bbb" "spoo.me" 0
  | 1 => .update openEnv plainEdge 1 { linkAlias := some "bbb" } 7 none 0
  | 2 => .update openEnv plainEdge 1 { longUrl := some "https://b.example/" } 7 none 0

/-- The edit reads, the link is renamed and visited, and the edit writes and clears the old code. -/
def renameInside : List (Fin 3) := [2, 1, 1, 1, 1, 0, 0, 0, 0, 0, 0, 2, 2, 2]

/-- An entry that differs in some part from every stored link. -/
theorem not_cacheCoherent {β : Type} {readers : LegacyReaders} {s : Stores}
    {linkAlias domain systemDomain : String} (part : UrlCacheData → β) (b : β)
    (hentry : (s.cache.get linkAlias domain).map part = some b)
    (hlegacy : s.legacy.docs = []) (hurls : ∀ row ∈ s.urls.docs, part row.projection ≠ b) :
    ¬CacheCoherent readers systemDomain s := by
  intro hcoherent
  obtain ⟨data, hdata, rfl⟩ := Option.map_eq_some_iff.1 hentry
  rcases hcoherent linkAlias domain data hdata with ⟨row, hrow, -, hproj⟩ | ⟨row, hrow, -⟩
  · exact hurls row hrow (congrArg part hproj)
  · rw [hlegacy] at hrow
    cases hrow

/-- A blocked link stays in the cache as ACTIVE, and a link that was edited with its old page. -/
theorem stale_entries_remain :
    (∀ key data, ownedStores.cached key = some data →
      IsStored plainReaders "spoo.me" ownedStores key data) ∧
    (((ownedRace visitAndBlock).run blockInside).Finished ∧
      ¬CacheCoherent plainReaders "spoo.me" ((ownedRace visitAndBlock).run blockInside).shared) ∧
    ((ownedRace visitAndEdits).run renameInside).Finished ∧
      ¬CacheCoherent plainReaders "spoo.me"
        ((ownedRace visitAndEdits).run renameInside).shared := by
  have hblocked (linkAlias domain : String) := @not_cacheCoherent _ plainReaders
    ((ownedRace visitAndBlock).run blockInside).shared linkAlias domain "spoo.me"
    UrlCacheData.urlStatus .active
  have hedited (linkAlias domain : String) := @not_cacheCoherent _ plainReaders
    ((ownedRace visitAndEdits).run renameInside).shared linkAlias domain "spoo.me"
    UrlCacheData.longUrl "https://a.example/page"
  refine ⟨cached_ownedStores, ⟨fun i => by cases i <;> rfl, ?_⟩, fun i => ?_, ?_⟩
  · exact hblocked "aaa" "spoo.me" (by decide +kernel) (by decide +kernel) (by decide +kernel)
  · match i with
    | 0 => rfl
    | 1 => rfl
    | 2 => rfl
  · exact hedited "bbb" "spoo.me" (by decide +kernel) (by decide +kernel) (by decide +kernel)

end Spoo
