import Spoo.Proofs.EdgeEligibility
import Spoo.Proofs.Eviction
import Spoo.Proofs.LinkChanges
import Spoo.Services.Promotion

/-!
# Removals from the edge

A promotion puts a redirect into the edge store from the cached copy it read earlier. A block, a
deletion, a deactivation and a change of the key delete the entry after they have written the
link. The redirect stays where the promotion puts it behind the deletion, and where the link has
moved on from the key that is deleted.
-/

namespace Spoo

open Interleave Mongo Mongo.Collection UrlRepository

/-! ## Redirects and links -/

section

variable (systemDomain code : String)

/-- The redirect that the edge serves under the code at a time, as a copy under one key. -/
def Stores.redirect (later : Int) (s : Stores) (_ : Unit) : Option Unit :=
  if s.kv.serves (cacheKey systemDomain code) later then some () else none

/-- The link is ACTIVE under the code of the system domain. -/
def UrlRow.Under (row : UrlRow) : Prop :=
  row.domain = systemDomain ∧ row.linkAlias = code ∧ row.status = .active

/-- The link with this id is stored, ACTIVE and under the code. -/
def LinkUnder (urlId : ObjectId) (s : Stores) : Prop :=
  ∃ row ∈ s.urls.lookup urlId, row.Under systemDomain code

end

/-- The write takes the link off its code: it switches the link off, or gives it another alias or
domain. -/
def UrlOps.Removes (ops : UrlOps) (row : UrlRow) : Prop :=
  ops.status = some .inactive ∨
    (ops.linkAlias.getD row.linkAlias, ops.domain.getD row.domain) ≠ (row.linkAlias, row.domain)

/-! ## Who moves -/

/-- The operations that put the redirect of a link into the edge store, or take the link off its
code. -/
inductive EdgeParty where
  | promote (hotDomain hotShortCode : String) (ttl now : Int)
  | update (env : UpdateEnv) (request : UpdateUrlRequest) (ownerId : ObjectId)
      (clientIp : Option String) (now : Int)
  | delete (ownerId : ObjectId)
  | bulkDelete (ids : List ObjectId) (ownerId : ObjectId) (now : Int)
  | bulkSetStatus (ids : List ObjectId) (status : OwnerStatus) (ownerId : ObjectId) (now : Int)
  | bulkMoveDomain (env : UpdateEnv) (ids : List ObjectId) (domain : Option String) (ownerId : ObjectId)
      (now : Int)
  | safety (block : Block)

/-- The enforcer of the deployment. -/
def EdgeConfig.enforcer (edge : EdgeConfig) (lookupCode : String → String) : EnforcerConfig where
  systemDefaultDomain := edge.systemDefaultDomain
  edgeEnabled := edge.enabled
  v2LookupCode := lookupCode

namespace EdgeParty

def Vars : EdgeParty → Type
  | .promote .. => PromoteToEdgeCacheAction.PromoteVars
  | .update .. | .delete .. => OwnerVars
  | .bulkDelete .. | .bulkSetStatus .. => BulkVars
  | .bulkMoveDomain .. => BulkUrlService.MoveVars
  | .safety .. => EnforcerVars

variable (edge : EdgeConfig) (lookupCode : String → String) (urlId : ObjectId) (code : String)

/-- The calls of the operation, from its initial variables. -/
def process : (party : EdgeParty) → Process party.Vars Stores
  | .promote hotDomain hotShortCode ttl now =>
    (⟨{}, PromoteToEdgeCacheAction.promoteCalls edge hotDomain hotShortCode ttl now⟩ :
      Process PromoteToEdgeCacheAction.PromoteVars Stores)
  | .update env request ownerId clientIp now =>
    (⟨{}, UrlService.updateCalls env edge urlId request ownerId clientIp now⟩ :
      Process OwnerVars Stores)
  | .delete ownerId => (⟨{}, UrlService.deleteCalls edge urlId ownerId⟩ : Process OwnerVars Stores)
  | .bulkDelete ids ownerId now =>
    (⟨{}, BulkUrlService.bulkDeleteCalls edge ids ownerId now⟩ : Process BulkVars Stores)
  | .bulkSetStatus ids status ownerId now =>
    (⟨{}, BulkUrlService.bulkSetStatusCalls edge ids status ownerId now⟩ :
      Process BulkVars Stores)
  | .bulkMoveDomain env ids domain ownerId now =>
    (⟨{}, BulkUrlService.bulkMoveDomainCalls env edge ids domain ownerId now⟩ :
      Process BulkUrlService.MoveVars Stores)
  | .safety block => (⟨{}, block.calls (edge.enforcer lookupCode)⟩ : Process EnforcerVars Stores)

/-- What the operation has decided fits the deployment: only links of the system domain are
promoted, and an owner sets a link ACTIVE or INACTIVE. -/
def Decided : (party : EdgeParty) → party.Vars → Prop
  | .promote hotDomain _ _ _, (v : PromoteToEdgeCacheAction.PromoteVars) =>
    v.entry.isSome = true → hotDomain = edge.systemDefaultDomain
  | .update .., (v : OwnerVars) => ∀ decision ∈ v.pending, ∀ status ∈ decision.2.status,
    status = .active ∨ status = .inactive
  | _, _ => True

/-- What is left to do are the last calls of the operation. -/
def Underway (party : EdgeParty) (p : Process party.Vars Stores) : Prop :=
  p.todo <:+ (party.process edge lookupCode urlId).todo ∧ party.Decided edge p.vars

/-- A promotion that is about to put the redirect under the code finds the link there, or some
operation will still delete the key. -/
def PromoteCareful (hotShortCode : String) (awaited : Unit → Prop) (s : Stores)
    (p : Process PromoteToEdgeCacheAction.PromoteVars Stores) : Prop :=
  p.todo.length = 1 → p.vars.entry.isSome = true → hotShortCode = code →
    LinkUnder edge.systemDefaultDomain code urlId s ∨ awaited ()

/-- An update that is about to take the link off the code, where the redirect is exposed, has read
the link under that code, and the edge is enabled. -/
def UpdateCareful (exposed : Unit → Prop) (s : Stores) (p : Process OwnerVars Stores) : Prop :=
  p.todo.length = 3 → ∀ decision ∈ p.vars.pending, ∀ row ∈ s.urls.lookup urlId,
    row.Under edge.systemDefaultDomain code → decision.2.Removes row → exposed () →
      edge.enabled = true ∧
        (decision.1.linkAlias, decision.1.domain) = (code, edge.systemDefaultDomain)

/-- A deletion likewise. -/
def DeleteCareful (exposed : Unit → Prop) (s : Stores) (p : Process OwnerVars Stores) : Prop :=
  p.todo.length = 3 → ∀ decision ∈ p.vars.pending, LinkUnder edge.systemDefaultDomain code urlId s →
    exposed () → edge.enabled = true ∧
      (decision.1.linkAlias, decision.1.domain) = (code, edge.systemDefaultDomain)

/-- A bulk operation that is about to take the link off the code has read some document under it. -/
def BulkCareful (ownerId : ObjectId) (exposed : Unit → Prop) (s : Stores)
    (p : Process BulkVars Stores) : Prop :=
  p.todo.length = 3 → ∀ row ∈ s.urls.lookup urlId, row.Under edge.systemDefaultDomain code →
    urlId ∈ p.vars.changed.map (·.id) → row.ownerId = ownerId → exposed () →
      edge.enabled = true ∧ ∃ doc ∈ p.vars.changed,
        (doc.linkAlias, doc.domain) = (code, edge.systemDefaultDomain)

/-- A move to another domain that is about to write the link, and so take it off the code, has read it
there. -/
def MoveCareful (env : UpdateEnv) (target : String) (ownerId : ObjectId) (exposed : Unit → Prop)
    (s : Stores) (p : Process BulkUrlService.MoveVars Stores) : Prop :=
  ∀ doc ∈ p.vars.pending.head?, doc.id = urlId → target ≠ edge.systemDefaultDomain →
    (doc.domain ≠ target ∧ doc.linkAlias ∉ p.vars.claimed ∧ env.KeyFree target doc.linkAlias) →
      ∀ row ∈ s.urls.lookup urlId, row.Under edge.systemDefaultDomain code → row.ownerId = ownerId →
        exposed () → edge.enabled = true ∧
          (doc.linkAlias, doc.domain) = (code, edge.systemDefaultDomain)

/-- A block that is about to block the link has listed a link under the code. -/
def BlockCareful (block : Block) (exposed : Unit → Prop) (s : Stores)
    (p : Process EnforcerVars Stores) : Prop :=
  let enforcer := edge.enforcer lookupCode
  p.todo.length + block.reads = (block.calls enforcer).length → ∀ row ∈ s.urls.lookup urlId,
    row.Under edge.systemDefaultDomain code → block.Matches p.vars row → exposed () →
      edge.enabled = true ∧ block.Evicts enforcer p.vars code edge.systemDefaultDomain

/-- The operation is careful about its next move. -/
def Careful (exposed awaited : Unit → Prop) (s : Stores) :
    (party : EdgeParty) → Process party.Vars Stores → Prop
  | .promote _ hotShortCode _ _, p => PromoteCareful edge urlId code hotShortCode awaited s p
  | .update .., p => UpdateCareful edge urlId code exposed s p
  | .delete .., p => DeleteCareful edge urlId code exposed s p
  | .bulkDelete _ ownerId _, p => BulkCareful edge urlId code ownerId exposed s p
  | .bulkSetStatus _ status ownerId _, p =>
    status = .inactive → BulkCareful edge urlId code ownerId exposed s p
  | .bulkMoveDomain env _ domain ownerId _, p =>
    MoveCareful edge urlId code env (targetDomain env domain) ownerId exposed s p
  | .safety block, p => BlockCareful edge lookupCode urlId code block exposed s p

end EdgeParty

/-! ## What a move leaves -/

section

variable {systemDomain code : String} {later : Int} {urlId : ObjectId} {s s' : Stores}
  {safe : Unit → Prop}

theorem redirect_eq_some {u x : Unit} : s.redirect systemDomain code later u = some x ↔
    s.kv.serves (cacheKey systemDomain code) later = true := by
  unfold Stores.redirect
  split <;> simp_all

theorem redirect_eq_none {u : Unit}
    (h : ¬s.kv.serves (cacheKey systemDomain code) later = true) :
    s.redirect systemDomain code later u = none := if_neg h

variable (systemDomain code later urlId) in
/-- A move leaves only redirects of the link behind, unless the key is `safe`. -/
abbrev LeavesRedirect (safe : Unit → Prop) (s s' : Stores) : Prop :=
  Leaves (Stores.redirect systemDomain code later)
    (fun s _ _ => LinkUnder systemDomain code urlId s) safe s s'

theorem leavesRedirect_of_same (hurls : s'.urls = s.urls)
    (hkv : s'.kv.serves (cacheKey systemDomain code) later = true →
      s.kv.serves (cacheKey systemDomain code) later = true) :
    LeavesRedirect systemDomain code later urlId safe s s' := by
  refine .of_clears (fun _ _ h => redirect_eq_some.2 (hkv (redirect_eq_some.1 h))) fun _ _ h => ?_
  unfold LinkUnder
  rw [hurls]
  exact h

theorem leavesRedirect_of_kv (hurls : s'.urls = s.urls) (hkv : s'.kv = s.kv) :
    LeavesRedirect systemDomain code later urlId safe s s' :=
  leavesRedirect_of_same hurls fun h => by rwa [hkv] at h

/-- A write to the v2 links alone. -/
theorem leavesRedirect_of_urls {urls : UrlStore}
    (h : ∀ row, s.urls.lookup urlId = some row → row.Under systemDomain code →
      (∃ row', urls.lookup urlId = some row' ∧ row'.Under systemDomain code) ∨ safe ()) :
    LeavesRedirect systemDomain code later urlId safe s { s with urls } where
  written _ _ h := .inl h
  kept := by
    rintro _ _ ⟨row, hrow, hcode⟩
    exact h row hrow hcode

end

namespace EdgeParty

variable {edge : EdgeConfig} {urlId : ObjectId} {code : String} {later : Int}
  {exposed awaited safe : Unit → Prop} {s : Stores}

/-! ### A promotion -/

section

variable {hotDomain hotShortCode : String} {ttl now : Int}

theorem promote_decided_step {p : Process PromoteToEdgeCacheAction.PromoteVars Stores}
    (hunder : p.todo <:+
      PromoteToEdgeCacheAction.promoteCalls edge hotDomain hotShortCode ttl now)
    (hdecided : p.vars.entry.isSome = true → hotDomain = edge.systemDefaultDomain)
    (hsome : (p.step s).1.vars.entry.isSome = true) : hotDomain = edge.systemDefaultDomain := by
  obtain ⟨v, todo⟩ := p
  unfold PromoteToEdgeCacheAction.promoteCalls at hunder
  split at hunder
  · simp only [List.suffix_cons_iff, List.suffix_nil] at hunder
    rcases hunder with rfl | rfl | rfl
    · exact PromoteToEdgeCacheAction.systemDomain_readCall hdecided hsome
    · simp only [Process.step_cons, PromoteToEdgeCacheAction.putCall] at hsome
      split at hsome <;> exact hdecided hsome
    · exact hdecided hsome
  · rw [List.suffix_nil] at hunder
    subst hunder
    exact hdecided hsome

theorem PromoteCareful.leavesRedirect {p : Process PromoteToEdgeCacheAction.PromoteVars Stores}
    (hunder : p.todo <:+
      PromoteToEdgeCacheAction.promoteCalls edge hotDomain hotShortCode ttl now)
    (hdecided : p.vars.entry.isSome = true → hotDomain = edge.systemDefaultDomain)
    (hcareful : PromoteCareful edge urlId code hotShortCode awaited s p)
    (hsafe : SafeAfter (Stores.redirect edge.systemDefaultDomain code later) exposed awaited safe
      p s) :
    LeavesRedirect edge.systemDefaultDomain code later urlId safe s (p.step s).2 := by
  obtain ⟨v, todo⟩ := p
  unfold PromoteToEdgeCacheAction.promoteCalls at hunder
  split at hunder
  · simp only [List.suffix_cons_iff, List.suffix_nil] at hunder
    rcases hunder with rfl | rfl | rfl
    · refine .of_eq ?_
      simp only [Process.step, PromoteToEdgeCacheAction.readCall]
      split
      · rfl
      · split <;> rfl
    · cases hentry : v.entry with
      | none => exact .of_eq (by simp [Process.step, PromoteToEdgeCacheAction.putCall, hentry])
      | some entry =>
        have hsome : v.entry.isSome = true := by rw [hentry]; rfl
        have hstep : (PromoteToEdgeCacheAction.putCall hotDomain hotShortCode ttl now v s).2 =
            { s with kv := s.kv.put (cacheKey hotDomain hotShortCode) entry ttl now } := by
          simp [PromoteToEdgeCacheAction.putCall, hentry]
        rw [Process.step_cons, hstep]
        refine ⟨fun _ _ hput => ?_, fun _ _ h => .inl h⟩
        replace hput := redirect_eq_some.1 hput
        rcases EdgeKv.serves_put hput with ⟨hkey, -⟩ | ⟨-, hold⟩
        · have hcode : hotShortCode = code := by
            rw [hdecided hsome] at hkey
            exact (linkAlias_of_cacheKey hkey).symm
          rcases hcareful rfl hsome hcode with hthere | hawaits
          · exact .inr (.inl hthere)
          · exact .inr (.inr (hsafe.awaited () hawaits))
        · exact .inl (redirect_eq_some.2 hold)
    · exact .of_eq rfl
  · rw [List.suffix_nil] at hunder
    subst hunder
    exact .of_eq rfl

end

/-! ### An owner's method -/

section

variable {v : OwnerVars} {now : Int} {ownerId : ObjectId} {p : Process OwnerVars Stores}

/-- What an update has decided leaves the status alone, or sets it ACTIVE or INACTIVE. -/
abbrev SetsOnOff (v : OwnerVars) : Prop :=
  ∀ decision ∈ v.pending, ∀ status ∈ decision.2.status, status = .active ∨ status = .inactive

/-- A write that does not take the link off its code leaves it ACTIVE there. -/
theorem under_toUpdate {systemDomain : String} {ops : UrlOps} {row : UrlRow}
    (hstatus : ∀ status ∈ ops.status, status = .active ∨ status = .inactive)
    (hstays : ¬ops.Removes row) (hrow : row.Under systemDomain code) :
    (ops.toUpdate.apply row).Under systemDomain code := by
  obtain ⟨hdomain, halias, hactive⟩ := hrow
  obtain ⟨hon, hkey⟩ := not_or.1 hstays
  obtain ⟨hsameAlias, hsameDomain⟩ := Prod.mk.inj (not_not.1 hkey)
  refine ⟨hsameDomain.trans hdomain, hsameAlias.trans halias, ?_⟩
  change ops.status.getD row.status = .active
  cases hset : ops.status with
  | none => exact hactive
  | some status =>
    rcases hstatus status hset with rfl | rfl
    · rfl
    · exact absurd hset hon

/-- The edge call after such a write deletes the key that the link was read under. -/
theorem redirect_reconcileEdge {existing : UrlV2Doc} {ops : UrlOps} {row : UrlRow} {u : Unit}
    (hpending : v.pending = some (existing, ops)) (henabled : edge.enabled = true)
    (hread : (existing.linkAlias, existing.domain) = (code, edge.systemDefaultDomain))
    (hrow : row.Under edge.systemDefaultDomain code) (hremoves : ops.Removes row) :
    (UrlService.reconcileEdge edge now v s).2.redirect edge.systemDefaultDomain code later u =
      none := by
  refine redirect_eq_none fun hserves => ?_
  obtain ⟨halias, hdomain⟩ := Prod.mk.inj hread
  simp only [UrlService.reconcileEdge, UrlService.onPending, hpending] at hserves
  rw [← halias, ← hdomain] at hserves
  obtain ⟨hkey, hon, -⟩ := keeps_of_serves_updateEdge henabled hdomain hserves
  rcases hremoves with hoff | hmoved
  · exact hon hoff
  · refine hmoved ?_
    rw [hrow.1, hrow.2.1, ← halias, ← hdomain]
    simpa [UrlService.keyChanges] using hkey

/-- The write of an update, before the edge call. -/
theorem writeUpdate_leavesRedirect
    (hdecided : SetsOnOff v)
    (hcareful : ∀ decision ∈ v.pending, ∀ row ∈ s.urls.lookup urlId,
      row.Under edge.systemDefaultDomain code → decision.2.Removes row → exposed () →
        edge.enabled = true ∧
          (decision.1.linkAlias, decision.1.domain) = (code, edge.systemDefaultDomain))
    (hsafe : SafeAfter (Stores.redirect edge.systemDefaultDomain code later) exposed awaited safe
      ⟨v, [UrlService.writeUpdate urlId, UrlService.invalidateKeys,
        UrlService.reconcileEdge edge now]⟩ s) :
    LeavesRedirect edge.systemDefaultDomain code later urlId safe s
      (UrlService.writeUpdate urlId v s).2 := by
  rcases UrlService.writeUpdate_cases v with ⟨hsame, -⟩ | ⟨existing, ops, urls, hpending, hwrite, hstep⟩
  · exact .of_eq hsame
  · rw [hstep]
    refine leavesRedirect_of_urls fun row hrow hcode => ?_
    by_cases hremoves : ops.Removes row
    · refine .inr (hsafe.of_exposed (fun _ h => by rwa [hstep] at h) fun hshown => ?_)
      obtain ⟨henabled, hread⟩ := hcareful _ hpending row hrow hcode hremoves hshown
      refine clears_tail fun s' => clears_head fun s'' => ?_
      rw [UrlService.vars_invalidateKeys, hstep]
      exact redirect_reconcileEdge hpending henabled hread hcode hremoves
    · refine .inl ⟨_, ?_, under_toUpdate (hdecided _ hpending) hremoves hcode⟩
      have hid : row.id = urlId := (lookup_eq_some_iff.1 hrow).2
      rw [lookup_updateManyUnique hwrite, hrow, Option.map_some,
        applyWhere_of_matches _ (by simp [hid])]

theorem UpdateCareful.leavesRedirect {env : UpdateEnv} {request : UpdateUrlRequest}
    {clientIp : Option String}
    (hunder : p.todo <:+ UrlService.updateCalls env edge urlId request ownerId clientIp now)
    (hdecided : SetsOnOff p.vars)
    (hcareful : UpdateCareful edge urlId code exposed s p)
    (hsafe : SafeAfter (Stores.redirect edge.systemDefaultDomain code later) exposed awaited safe
      p s) :
    LeavesRedirect edge.systemDefaultDomain code later urlId safe s (p.step s).2 := by
  obtain ⟨v, todo⟩ := p
  simp only [UrlService.updateCalls, List.suffix_cons_iff, List.suffix_nil] at hunder
  rcases hunder with rfl | rfl | rfl | rfl | rfl
  · exact .of_eq (UrlService.readForUpdate_stores v)
  · exact writeUpdate_leavesRedirect hdecided (hcareful rfl) hsafe
  · exact leavesRedirect_of_kv (UrlService.urls_invalidateKeys v s) (UrlService.kv_invalidateKeys v)
  · refine leavesRedirect_of_same (UrlService.urls_reconcileEdge edge now v s) fun h => ?_
    simp only [Process.step, UrlService.reconcileEdge, UrlService.onPending] at h
    split at h
    · exact serves_updateEdge h
    · exact h
  · exact .of_eq rfl

/-- What an update decides, whatever it read. -/
theorem decided_readForUpdate {env : UpdateEnv} {request : UpdateUrlRequest}
    {clientIp : Option String}
    (h : SetsOnOff v) :
    SetsOnOff (UrlService.readForUpdate env urlId request ownerId clientIp now v s).1 := by
  unfold UrlService.readForUpdate
  dsimp only
  split
  · exact h
  · rename_i existing ops hdecide
    obtain ⟨loaded, -, hdecide⟩ := Fallible.bind_eq_ok.1 hdecide
    obtain ⟨built, hbuild, hdecide⟩ := Fallible.bind_eq_ok.1 hdecide
    cases hdecide
    split
    · exact h
    · rintro _ ⟨⟩
      exact (edits_buildOps hbuild).1.status

theorem update_decided_step {env : UpdateEnv} {request : UpdateUrlRequest}
    {clientIp : Option String}
    (hunder : p.todo <:+ UrlService.updateCalls env edge urlId request ownerId clientIp now)
    (hdecided : SetsOnOff p.vars) : SetsOnOff (p.step s).1.vars := by
  obtain ⟨v, todo⟩ := p
  simp only [UrlService.updateCalls, List.suffix_cons_iff, List.suffix_nil] at hunder
  rcases hunder with rfl | rfl | rfl | rfl | rfl
  · exact decided_readForUpdate hdecided
  · rcases @UrlService.writeUpdate_cases urlId s v with ⟨-, hnone⟩ | ⟨_, _, _, -, -, hstep⟩
    · simp [Process.step_cons, hnone]
    · rw [Process.step_cons, hstep]
      exact hdecided
  · rw [Process.step_cons, UrlService.vars_invalidateKeys]
    exact hdecided
  · rw [Process.step_cons, UrlService.vars_reconcileEdge]
    exact hdecided
  · exact hdecided

/-- The edge call of a deletion. -/
theorem redirect_dropEdge {existing : UrlV2Doc} {ops : UrlOps} {u : Unit}
    (hpending : v.pending = some (existing, ops)) (henabled : edge.enabled = true)
    (hread : (existing.linkAlias, existing.domain) = (code, edge.systemDefaultDomain)) :
    (UrlService.dropEdge edge v s).2.redirect edge.systemDefaultDomain code later u = none := by
  refine redirect_eq_none fun hserves => ?_
  obtain ⟨halias, hdomain⟩ := Prod.mk.inj hread
  simp only [UrlService.dropEdge, UrlService.onPending, hpending] at hserves
  split at hserves
  · refine (serves_ogRemove hserves).2 hdomain ?_
    rw [halias, hdomain]
  · refine (serves_purgeEdgeKey hserves).2 henabled hdomain ?_
    rw [halias, hdomain]

theorem DeleteCareful.leavesRedirect
    (hunder : p.todo <:+ UrlService.deleteCalls edge urlId ownerId)
    (hcareful : DeleteCareful edge urlId code exposed s p)
    (hsafe : SafeAfter (Stores.redirect edge.systemDefaultDomain code later) exposed awaited safe
      p s) :
    LeavesRedirect edge.systemDefaultDomain code later urlId safe s (p.step s).2 := by
  obtain ⟨v, todo⟩ := p
  simp only [UrlService.deleteCalls, List.suffix_cons_iff, List.suffix_nil] at hunder
  rcases hunder with rfl | rfl | rfl | rfl | rfl
  · exact .of_eq UrlService.readForDelete_stores
  · rcases UrlService.writeDelete_cases v with hsame | ⟨existing, ops, hpending, hstep⟩
    · exact .of_eq (by rw [Process.step_cons, hsame])
    · rw [Process.step_cons, hstep]
      refine leavesRedirect_of_urls fun row hrow hcode =>
        .inr (hsafe.of_exposed (fun _ h => by rwa [hstep] at h) fun hshown => ?_)
      obtain ⟨henabled, hread⟩ := hcareful rfl _ hpending ⟨row, hrow, hcode⟩ hshown
      refine clears_tail fun s' => clears_head fun s'' => ?_
      rw [UrlService.vars_invalidateKeys, hstep]
      exact redirect_dropEdge hpending henabled hread
  · exact leavesRedirect_of_kv (UrlService.urls_invalidateKeys v s) (UrlService.kv_invalidateKeys v)
  · refine leavesRedirect_of_same (UrlService.urls_dropEdge edge v s) fun h => ?_
    simp only [Process.step, UrlService.dropEdge, UrlService.onPending] at h
    split at h
    · split at h
      · exact (serves_ogRemove h).1
      · exact (serves_purgeEdgeKey h).1
    · exact h
  · exact .of_eq rfl

end

/-! ### A bulk operation -/

section

variable {v : BulkVars} {now : Int} {ownerId : ObjectId} {ids : List ObjectId}
  {p : Process BulkVars Stores}

/-- A flush puts no redirects, and leaves none under the keys to purge. -/
theorem serves_edgeFlush {kv : EdgeKv} {key : String} {purgeKeys : List String}
    {puts : List (String × EdgeCacheEntry)} (hputs : ∀ e ∈ puts, e.2.isRedirect = false)
    (h : (BulkUrlService.edgeFlush edge kv purgeKeys puts now).serves key later = true) :
    kv.serves key later = true ∧ (edge.enabled = true → key ∉ purgeKeys) := by
  unfold BulkUrlService.edgeFlush at h
  split at h
  · obtain ⟨hkept, h⟩ := EdgeKv.serves_bulkDelete.1 h
    exact ⟨EdgeKv.serves_bulkPut hputs h, fun _ => hkept⟩
  · rename_i hoff
    exact ⟨h, fun hon => absurd hon hoff⟩

theorem isRedirect_ogPutEntries {docs : List UrlV2Doc} {updates : UrlOps} :
    ∀ e ∈ BulkUrlService.ogPutEntries edge docs updates, e.2.isRedirect = false := by
  intro e he
  obtain ⟨doc, -, rfl⟩ := List.mem_map.1 he
  rfl

/-- It leaves no redirect under the key of a document that it is for. -/
theorem redirect_edgeFlush {docs : List UrlV2Doc} {puts : List (String × EdgeCacheEntry)} {u : Unit}
    (hputs : ∀ e ∈ puts, e.2.isRedirect = false) (henabled : edge.enabled = true)
    (hread : ∃ doc ∈ docs, (doc.linkAlias, doc.domain) = (code, edge.systemDefaultDomain)) :
    ({ s with
      kv := BulkUrlService.edgeFlush edge s.kv (BulkUrlService.systemDomainKeys edge docs) puts now } :
      Stores).redirect edge.systemDefaultDomain code later u = none := by
  refine redirect_eq_none fun hserves => (serves_edgeFlush hputs hserves).2 henabled ?_
  obtain ⟨doc, hdoc, hcode⟩ := hread
  obtain ⟨halias, hdomain⟩ := Prod.mk.inj hcode
  refine List.mem_map.2 ⟨doc, List.mem_filter.2 ⟨hdoc, decide_eq_true hdomain⟩, ?_⟩
  rw [halias, hdomain]

theorem serves_purgeChanged
    (h : (BulkUrlService.purgeChanged edge now v s).2.kv.serves
      (cacheKey edge.systemDefaultDomain code) later = true) :
    s.kv.serves (cacheKey edge.systemDefaultDomain code) later = true :=
  (serves_edgeFlush (fun _ he => absurd he List.not_mem_nil) h).1

/-- The flush deletes the keys of the documents that were read. -/
theorem redirect_purgeChanged {u : Unit} (henabled : edge.enabled = true)
    (hread : ∃ doc ∈ v.changed, (doc.linkAlias, doc.domain) = (code, edge.systemDefaultDomain)) :
    (BulkUrlService.purgeChanged edge now v s).2.redirect edge.systemDefaultDomain code later u =
      none :=
  redirect_edgeFlush (fun _ he => absurd he List.not_mem_nil) henabled hread

theorem bulkDelete_leavesRedirect
    (hunder : p.todo <:+ BulkUrlService.bulkDeleteCalls edge ids ownerId now)
    (hcareful : BulkCareful edge urlId code ownerId exposed s p)
    (hsafe : SafeAfter (Stores.redirect edge.systemDefaultDomain code later) exposed awaited safe
      p s) :
    LeavesRedirect edge.systemDefaultDomain code later urlId safe s (p.step s).2 := by
  obtain ⟨v, todo⟩ := p
  simp only [BulkUrlService.bulkDeleteCalls, List.suffix_cons_iff, List.suffix_nil] at hunder
  rcases hunder with rfl | rfl | rfl | rfl | rfl
  · exact .of_eq rfl
  · by_cases hchanged : v.changed = []
    · exact .of_eq (by simp [Process.step, BulkUrlService.writeDelete, hchanged])
    · have hstep : BulkUrlService.writeDelete ownerId v s =
          ({ v with batch := v.batch.okAll v.changed },
            { s with
              urls := UrlRepository.deleteByIdsAndOwner s.urls (v.changed.map (·.id)) ownerId }) := by
        simp [BulkUrlService.writeDelete, hchanged]
      rw [Process.step_cons, hstep]
      refine leavesRedirect_of_urls fun row hrow hcode => ?_
      have hid : row.id = urlId := (lookup_eq_some_iff.1 hrow).2
      by_cases hreached : urlId ∈ v.changed.map (·.id) ∧ row.ownerId = ownerId
      · refine .inr (hsafe.of_exposed (fun _ h => by rwa [hstep] at h) fun hshown => ?_)
        obtain ⟨henabled, hread⟩ := hcareful rfl row hrow hcode hreached.1 hreached.2 hshown
        refine clears_tail fun s' => clears_head fun s'' => ?_
        rw [hstep]
        exact redirect_purgeChanged henabled hread
      · refine .inl ⟨row, ?_, hcode⟩
        rw [← hid] at hreached
        rw [UrlRepository.deleteByIdsAndOwner, lookup_deleteMany, hrow, Option.filter_some,
          if_pos]
        simpa [-not_and, not_and_or] using hreached
  · exact leavesRedirect_of_kv rfl rfl
  · exact leavesRedirect_of_same rfl serves_purgeChanged
  · exact .of_eq rfl

/-- A write of a status, as far as it takes the link off its code. -/
theorem writeStatus_leavesRedirect {status : OwnerStatus}
    (hcareful : status = .inactive → ∀ row ∈ s.urls.lookup urlId,
      row.Under edge.systemDefaultDomain code → urlId ∈ v.changed.map (·.id) →
        row.ownerId = ownerId → exposed () → edge.enabled = true ∧ ∃ doc ∈ v.changed,
          (doc.linkAlias, doc.domain) = (code, edge.systemDefaultDomain))
    (hsafe : SafeAfter (Stores.redirect edge.systemDefaultDomain code later) exposed awaited safe
      ⟨v, [BulkUrlService.writeChanged edge ownerId (BulkUrlService.statusOps status now) now,
        BulkUrlService.invalidateApplied, BulkUrlService.statusEdge edge status now]⟩ s) :
    LeavesRedirect edge.systemDefaultDomain code later urlId safe s
      (BulkUrlService.writeChanged edge ownerId (BulkUrlService.statusOps status now) now v
        s).2 := by
  by_cases hchanged : v.changed = []
  · exact .of_eq (by simp [BulkUrlService.writeChanged, hchanged])
  · cases hwrite : UrlRepository.updateByIdsAndOwner s.urls (v.changed.map (·.id)) ownerId
        (BulkUrlService.statusOps status now).toUpdate with
    | none =>
      simp only [BulkUrlService.writeChanged, if_neg hchanged, BulkUrlService.applyUpdate, hwrite]
      exact leavesRedirect_of_same rfl serves_purgeChanged
    | some urls =>
      have hstep : BulkUrlService.writeChanged edge ownerId (BulkUrlService.statusOps status now)
          now v s = ({ v with batch := v.batch.okAll v.changed }, { s with urls }) := by
        simp [BulkUrlService.writeChanged, hchanged, BulkUrlService.applyUpdate, hwrite]
      rw [hstep]
      refine leavesRedirect_of_urls fun row hrow hcode => ?_
      have hid : row.id = urlId := (lookup_eq_some_iff.1 hrow).2
      have hwritten := lookup_updateManyUnique hwrite urlId
      rw [hrow, Option.map_some] at hwritten
      by_cases hreached : urlId ∈ v.changed.map (·.id) ∧ row.ownerId = ownerId
      · cases status with
        | active =>
          rw [applyWhere_of_matches _ (by simpa [hid] using hreached)] at hwritten
          exact .inl ⟨_, hwritten, hcode.1, hcode.2.1, rfl⟩
        | inactive =>
          refine .inr (hsafe.of_exposed (fun _ h => by rwa [hstep] at h) fun hshown => ?_)
          obtain ⟨henabled, hread⟩ := hcareful rfl row hrow hcode hreached.1 hreached.2 hshown
          refine clears_tail fun s' => clears_head fun s'' => ?_
          rw [hstep]
          exact redirect_purgeChanged henabled hread
      · rw [applyWhere_of_not_matches _ (by simpa [hid] using hreached)] at hwritten
        exact .inl ⟨row, hwritten, hcode⟩

theorem bulkSetStatus_leavesRedirect {status : OwnerStatus}
    (hunder : p.todo <:+ BulkUrlService.bulkSetStatusCalls edge ids status ownerId now)
    (hcareful : status = .inactive → BulkCareful edge urlId code ownerId exposed s p)
    (hsafe : SafeAfter (Stores.redirect edge.systemDefaultDomain code later) exposed awaited safe
      p s) :
    LeavesRedirect edge.systemDefaultDomain code later urlId safe s (p.step s).2 := by
  obtain ⟨v, todo⟩ := p
  simp only [BulkUrlService.bulkSetStatusCalls, List.suffix_cons_iff, List.suffix_nil] at hunder
  rcases hunder with rfl | rfl | rfl | rfl | rfl
  · exact .of_eq rfl
  · exact writeStatus_leavesRedirect (fun hoff => hcareful hoff rfl) hsafe
  · exact leavesRedirect_of_kv rfl rfl
  · cases status with
    | active =>
      exact leavesRedirect_of_same rfl fun h => (serves_edgeFlush isRedirect_ogPutEntries h).1
    | inactive => exact leavesRedirect_of_same rfl serves_purgeChanged
  · exact .of_eq rfl

end

/-! ### A bulk move -/

section

open BulkUrlService

variable {env : UpdateEnv} {target : String} {ownerId : ObjectId} {now : Int} {v : MoveVars}
  {p : Process MoveVars Stores}

/-- What is left of a move is some turns and what follows them, or less. -/
theorem suffix_moveCalls {todo : List (Action MoveVars Stores)} {turns : Nat}
    (h : todo <:+ moveCalls env edge target ownerId now turns) :
    (∃ turns, todo = moveCalls env edge target ownerId now turns) ∨
      todo = [flushMoved edge target now] ∨ todo = [] := by
  induction turns with
  | zero =>
    simp only [moveCalls, List.suffix_cons_iff, List.suffix_nil] at h
    exact h.imp_left fun h => ⟨0, h⟩
  | succ turns ih =>
    rcases List.suffix_cons_iff.1 h with h | h
    · exact .inl ⟨turns + 1, h⟩
    · exact ih h

theorem mem_moved_moveNext {doc : UrlV2Doc} (hdoc : doc ∈ v.moved) (s : Stores) :
    doc ∈ (moveNext env target ownerId now v s).1.moved := by
  cases hpending : v.pending with
  | nil => simpa [moveNext, hpending] using hdoc
  | cons next pending =>
    simp only [moveNext, hpending]
    rcases moveItem_cases ⟨v.batch, v.moved, v.claimed, s.urls⟩ next with
      ⟨-, -, hmoved⟩ | ⟨-, -, -, hmoved, -⟩
    · rw [hmoved]
      exact hdoc
    · rw [hmoved]
      exact List.mem_append_left _ hdoc

/-- The flush is for every document that was moved in a turn before. -/
theorem clears_moveCalls (henabled : edge.enabled = true) (turns : Nat)
    (hread : ∃ doc ∈ v.moved, (doc.linkAlias, doc.domain) = (code, edge.systemDefaultDomain)) :
    Clears (Stores.redirect edge.systemDefaultDomain code later) ()
      (moveCalls env edge target ownerId now turns) v := by
  induction turns generalizing v with
  | zero =>
    exact clears_tail fun _ => clears_head fun _ => redirect_edgeFlush isRedirect_ogPutEntries henabled hread
  | succ turns ih =>
    obtain ⟨doc, hdoc, hcode⟩ := hread
    exact clears_tail fun s => ih ⟨doc, mem_moved_moveNext hdoc s, hcode⟩

/-- A turn of the loop. -/
theorem moveNext_leavesRedirect {turns : Nat}
    (hcareful : MoveCareful edge urlId code env target ownerId exposed s
      ⟨v, moveCalls env edge target ownerId now (turns + 1)⟩)
    (hsafe : SafeAfter (Stores.redirect edge.systemDefaultDomain code later) exposed awaited safe
      ⟨v, moveCalls env edge target ownerId now (turns + 1)⟩ s) :
    LeavesRedirect edge.systemDefaultDomain code later urlId safe s
      (moveNext env target ownerId now v s).2 := by
  cases hpending : v.pending with
  | nil => exact .of_eq (by simp [moveNext, hpending])
  | cons doc pending =>
    have hstep : (moveNext env target ownerId now v s).2 = { s with
        urls := (moveItem env target ownerId now ⟨v.batch, v.moved, v.claimed, s.urls⟩ doc).urls } := by
      simp [moveNext, hpending]
    rw [hstep]
    rcases moveItem_cases ⟨v.batch, v.moved, v.claimed, s.urls⟩ doc with
      ⟨hurls, -⟩ | ⟨hfree, hwrite, -, hmoved, helsewhere, hunclaimed⟩
    · exact leavesRedirect_of_kv hurls rfl
    refine leavesRedirect_of_urls fun row hrow hcode => ?_
    have hid : row.id = urlId := (lookup_eq_some_iff.1 hrow).2
    have hwritten := lookup_updateManyUnique hwrite urlId
    rw [hrow, Option.map_some] at hwritten
    by_cases hreached : row.id = doc.id ∧ row.ownerId = ownerId
    · rw [applyWhere_of_matches _ (by simpa using hreached)] at hwritten
      by_cases htarget : target = edge.systemDefaultDomain
      · exact .inl ⟨_, hwritten, htarget, hcode.2⟩
      refine .inr (hsafe.of_exposed (fun _ h => by rwa [hstep] at h) fun hshown => ?_)
      obtain ⟨henabled, hread⟩ := hcareful doc (by simp [hpending]) (hreached.1.symm.trans hid) htarget
        ⟨helsewhere, hunclaimed, hfree⟩ row hrow hcode hreached.2 hshown
      refine clears_moveCalls henabled turns ⟨doc, ?_, hread⟩
      simp [moveNext, hpending, hmoved]
    · rw [applyWhere_of_not_matches _ (by simpa using hreached)] at hwritten
      exact .inl ⟨row, hwritten, hcode⟩

theorem MoveCareful.leavesRedirect {ids : List ObjectId} {domain : Option String}
    (hunder : p.todo <:+ bulkMoveDomainCalls env edge ids domain ownerId now)
    (hcareful : MoveCareful edge urlId code env (targetDomain env domain) ownerId exposed s p)
    (hsafe : SafeAfter (Stores.redirect edge.systemDefaultDomain code later) exposed awaited safe
      p s) :
    LeavesRedirect edge.systemDefaultDomain code later urlId safe s (p.step s).2 := by
  obtain ⟨v, todo⟩ := p
  rcases List.suffix_cons_iff.1 hunder with rfl | hunder
  · exact .of_eq rfl
  rcases suffix_moveCalls hunder with ⟨turns, rfl⟩ | rfl | rfl
  · cases turns with
    | zero => exact leavesRedirect_of_kv rfl rfl
    | succ turns => exact moveNext_leavesRedirect hcareful hsafe
  · exact leavesRedirect_of_same rfl fun h => (serves_edgeFlush isRedirect_ogPutEntries h).1
  · exact .of_eq rfl

end

/-! ### A block -/

section

variable {p : Process EnforcerVars Stores} {block : Block} {lookupCode : String → String}

/-- A link that the write does not match stays under its code. -/
theorem under_flipRow {systemDomain : String} {v : EnforcerVars} {row : UrlRow}
    (hmatch : ¬block.Matches v row) (hrow : row.Under systemDomain code) :
    (block.flipRow v row).Under systemDomain code := by
  obtain ⟨causes, hflip⟩ := Block.flipRow_of_not_matches hmatch
  rw [hflip]
  exact hrow

theorem BlockCareful.leavesRedirect
    (hunder : p.todo <:+ block.calls (edge.enforcer lookupCode))
    (hcareful : BlockCareful edge lookupCode urlId code block exposed s p)
    (hsafe : SafeAfter (Stores.redirect edge.systemDefaultDomain code later) exposed awaited safe
      p s) :
    LeavesRedirect edge.systemDefaultDomain code later urlId safe s (p.step s).2 := by
  cases Block.move_of_suffix s hunder with
  | quiet hurls hlegacy hcache hkv =>
    refine leavesRedirect_of_same hurls fun hserves => ?_
    rw [EdgeKv.serves_iff] at hserves ⊢
    obtain ⟨entry, expires, hentry, hlive⟩ := hserves
    exact ⟨entry, expires, hkv _ _ hentry, hlive⟩
  | flips hturn hstep hclears =>
    rw [hstep]
    refine leavesRedirect_of_urls fun row hrow hcode => ?_
    have hflipped : (block.flip p.vars s).2.urls.lookup urlId = some (block.flipRow p.vars row) := by
      rw [Block.lookup_flip, hrow]
      rfl
    by_cases hmatch : block.Matches p.vars row
    · refine .inr ?_
      by_cases hshown : exposed ()
      · obtain ⟨henabled, hevicts⟩ := hcareful hturn row hrow hcode hmatch hshown
        refine hsafe.clears () (hclears fun v s => redirect_eq_none fun hserves => ?_)
        obtain ⟨entry, expires, hentry, -⟩ := EdgeKv.serves_iff.1 hserves
        exact (SafetyEnforcer.kv_evict hentry).2 henabled code hevicts rfl
      · exact hsafe.hidden () hshown fun _ h => by rwa [hstep] at h
    · exact .inl ⟨_, hflipped, under_flipRow hmatch hcode⟩
  | flipsLegacy hturn hstep hdocs hclears =>
    rw [hstep]
    exact leavesRedirect_of_kv rfl rfl

end

/-- What has been decided stays decided. -/
theorem Underway.step {party : EdgeParty} {lookupCode : String → String}
    {p : Process party.Vars Stores} (h : party.Underway edge lookupCode urlId p) (s : Stores) :
    party.Underway edge lookupCode urlId (p.step s).1 := by
  obtain ⟨hunder, hdecided⟩ := h
  refine ⟨(p.todo_step_suffix s).trans hunder, ?_⟩
  cases party with
  | promote => exact promote_decided_step hunder hdecided
  | update => exact update_decided_step hunder hdecided
  | delete => trivial
  | bulkDelete => trivial
  | bulkSetStatus => trivial
  | bulkMoveDomain => trivial
  | safety => trivial

/-- A careful move leaves no redirect of a link that is gone from the code, unless the key will be
deleted. -/
theorem Careful.leavesRedirect {party : EdgeParty} {lookupCode : String → String}
    {p : Process party.Vars Stores} (hunder : party.Underway edge lookupCode urlId p)
    (hcareful : party.Careful edge lookupCode urlId code exposed awaited s p)
    (hsafe : SafeAfter (Stores.redirect edge.systemDefaultDomain code later) exposed awaited safe
      p s) :
    LeavesRedirect edge.systemDefaultDomain code later urlId safe s (p.step s).2 := by
  obtain ⟨hunder, hdecided⟩ := hunder
  cases party with
  | promote => exact PromoteCareful.leavesRedirect hunder hdecided hcareful hsafe
  | update => exact UpdateCareful.leavesRedirect hunder hdecided hcareful hsafe
  | delete => exact DeleteCareful.leavesRedirect hunder hcareful hsafe
  | bulkDelete => exact bulkDelete_leavesRedirect hunder hcareful hsafe
  | bulkSetStatus => exact bulkSetStatus_leavesRedirect hunder hcareful hsafe
  | bulkMoveDomain => exact MoveCareful.leavesRedirect hunder hcareful hsafe
  | safety => exact BlockCareful.leavesRedirect hunder hcareful hsafe

end EdgeParty

/-! ## Runs -/

/-- The operations on the link, none of which has begun. -/
def edgeRace {ι : Type} (edge : EdgeConfig) (lookupCode : String → String) (urlId : ObjectId)
    (parties : ι → EdgeParty) (s : Stores) : System (fun i => (parties i).Vars) Stores where
  procs i := (parties i).process edge lookupCode urlId
  shared := s

/-- Where the edge serves a redirect under the code at the given time, the link is there. -/
def RemovalWins (systemDomain : String) (urlId : ObjectId) (code : String) (later : Int)
    (s : Stores) : Prop :=
  s.kv.serves (cacheKey systemDomain code) later = true → LinkUnder systemDomain code urlId s

/-- Promotions run interleaved with the operations that take a link off a code. While no promotion
puts the redirect of a link that is gone, unless the key will still be deleted, and every removal
deletes the key that it takes the link off, the edge serves no redirect under the code once all have
finished, unless the link is there. -/
theorem removal_wins_of_careful {ι : Type} [DecidableEq ι] (edge : EdgeConfig)
    (lookupCode : String → String) (urlId : ObjectId) (code : String) (later : Int)
    (parties : ι → EdgeParty) (s : Stores) (schedule : List ι)
    (hstart : RemovalWins edge.systemDefaultDomain urlId code later s)
    (hcareful : Run.Guarded System.step (fun sys i =>
        (parties i).Careful edge lookupCode urlId code
          (sys.Exposed (Stores.redirect edge.systemDefaultDomain code later))
          (sys.Awaits (Stores.redirect edge.systemDefaultDomain code later)) sys.shared
          (sys.procs i))
      (edgeRace edge lookupCode urlId parties s) schedule)
    (hfinished : ((edgeRace edge lookupCode urlId parties s).run schedule).Finished) :
    RemovalWins edge.systemDefaultDomain urlId code later
      ((edgeRace edge lookupCode urlId parties s).run schedule).shared := by
  have hunder : ∀ i, (parties i).Underway edge lookupCode urlId
      ((edgeRace edge lookupCode urlId parties s).procs i) := by
    refine fun i => ⟨List.suffix_rfl, ?_⟩
    simp only [edgeRace]
    cases parties i <;> simp [EdgeParty.Decided, EdgeParty.process]
  have hsettled : (edgeRace edge lookupCode urlId parties s).Settled
      (Stores.redirect edge.systemDefaultDomain code later)
      (fun s _ _ => LinkUnder edge.systemDefaultDomain code urlId s) :=
    fun _ _ hserved => .inl (hstart (redirect_eq_some.1 hserved))
  have hrun := hsettled.run (L := fun i => (parties i).Underway edge lookupCode urlId)
    (fun _ _ s hp => hp.step s)
    (fun _ _ _ _ _ _ hp hmay hsafe => EdgeParty.Careful.leavesRedirect hp hmay hsafe) hunder
    hcareful
  exact fun hserves =>
    hrun.right_of_finished hfinished (redirect_eq_some (x := ()) (u := ()) |>.2 hserves)

/-- The owner's link, cached by a visit. -/
def visitedStores : Stores :=
  { ownedStores with
    cache := ownedStores.cache.set "aaa" (.fromV2Doc (.fromMongo ownedLink)) }

/-- A promotion of the link, and another operation on it. -/
def promoteAnd (other : EdgeParty) : Bool → EdgeParty
  | false => .promote "spoo.me" "aaa" 300 0
  | true => other

def visitedRace (other : EdgeParty) : System (fun i => (promoteAnd other i).Vars) Stores :=
  edgeRace edgeOn id 1 (promoteAnd other) visitedStores

/-- A block of the host of the link. -/
def hostBlock : EdgeParty := .safety (.onHost "a.example" "phishing" 0)

/-- The promotion puts the redirect after the block has listed the links. -/
def promoteBeforeFlip : List Bool :=
  [false, true, true, true, true, false, true, true, true, true, true]

theorem removalWins_visitedStores : RemovalWins "spoo.me" 1 "aaa" 1 visitedStores :=
  fun h => nomatch h

theorem careful_promoteBeforeFlip : Run.Guarded System.step (fun sys i =>
      (promoteAnd hostBlock i).Careful edgeOn id 1 "aaa"
        (sys.Exposed (Stores.redirect "spoo.me" "aaa" 1))
        (sys.Awaits (Stores.redirect "spoo.me" "aaa" 1)) sys.shared (sys.procs i))
    (visitedRace hostBlock) promoteBeforeFlip := by
  have idle {n m : Nat} {P : Prop} (h : n ≠ m) (hn : n = m) : P := absurd hn h
  refine ⟨idle (by decide), idle (by decide), idle (by decide), idle (by decide), idle (by decide),
    fun _ _ _ => .inl ⟨ownedLink, rfl, rfl, rfl, rfl⟩, fun _ row _ _ _ _ => ⟨rfl, ?_⟩,
    idle (by decide), idle (by decide), idle (by decide), idle (by decide), trivial⟩
  exact .inl ⟨("aaa", "spoo.me"), by decide +kernel, rfl, rfl⟩

theorem removal_wins_of_careful_promoteBeforeFlip :
    RemovalWins "spoo.me" 1 "aaa" 1 ((visitedRace hostBlock).run promoteBeforeFlip).shared :=
  removal_wins_of_careful edgeOn id 1 "aaa" 1 (promoteAnd hostBlock) visitedStores
    promoteBeforeFlip removalWins_visitedStores careful_promoteBeforeFlip
    fun i => by cases i <;> rfl

/-- The owner renames the link. -/
def renameLink : EdgeParty := .update openEnv { linkAlias := some "bbb" } 7 none 0

/-- The promotion reads the cached copy, and puts the redirect when the other operation is
through. -/
def promoteAround (moves : Nat) : List Bool := false :: List.replicate moves true ++ [false]

/-- The edge goes on redirecting a link that has been blocked, and a code that its link has left. -/
theorem promotion_outlives_removal :
    RemovalWins "spoo.me" 1 "aaa" 1 visitedStores ∧
    (((visitedRace hostBlock).run (promoteAround 9)).Finished ∧
      ¬RemovalWins "spoo.me" 1 "aaa" 1
        ((visitedRace hostBlock).run (promoteAround 9)).shared) ∧
    ((visitedRace renameLink).run (promoteAround 4)).Finished ∧
      ¬RemovalWins "spoo.me" 1 "aaa" 1 ((visitedRace renameLink).run (promoteAround 4)).shared := by
  have loses {other : EdgeParty} {moves : Nat} {found : Option UrlRow}
      (hserves : ((visitedRace other).run (promoteAround moves)).shared.kv.serves
        (cacheKey "spoo.me" "aaa") 1 = true)
      (hfound : ((visitedRace other).run (promoteAround moves)).shared.urls.lookup 1 = found)
      (hgone : ∀ row ∈ found, row.linkAlias ≠ "aaa" ∨ row.status ≠ .active) :
      ¬RemovalWins "spoo.me" 1 "aaa" 1
        ((visitedRace other).run (promoteAround moves)).shared := by
    intro hwins
    obtain ⟨row, hrow, -, halias, hactive⟩ := hwins hserves
    exact (hgone row (hfound ▸ hrow)).elim (· halias) (· hactive)
  refine ⟨removalWins_visitedStores, ⟨fun i => by cases i <;> rfl, ?_⟩,
    fun i => by cases i <;> rfl, ?_⟩
  · exact loses (by decide +kernel) rfl (by decide +kernel)
  · exact loses (by decide +kernel) rfl (by decide +kernel)

end Spoo
