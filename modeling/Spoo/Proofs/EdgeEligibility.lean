import Spoo.Proofs.OwnerSteps
import Spoo.Services.UrlService.Resolve

/-!
# Which links the edge redirects

A promotion asks `promotion_skip_reason` once, when it writes the entry. An update takes the
entry away when it deactivates the link, gives it a start time or moves it to another key, and
on a link with meta-tags whenever it touches what the preview shows. What else makes a link
ineligible stays served until the entry times out.
-/

namespace Spoo

open Interleave Mongo Mongo.Collection UrlRepository Fallible

/-! ## Keys -/

theorem joined_inj {scope scope' name name' label : String} (hname : ':' ∉ name.toList)
    (hname' : ':' ∉ name'.toList)
    (h : label ++ scope ++ ":" ++ name = label ++ scope' ++ ":" ++ name') :
    scope = scope' ∧ name = name' := by
  have hlist := congrArg String.toList h
  simp only [String.toList_append, List.append_assoc, List.append_cancel_left_eq] at hlist
  obtain ⟨hscope, hrest⟩ := PyList.append_cons_inj_of_notMem hname hname' hlist
  exact ⟨String.ext hscope, String.ext hrest⟩

/-- Aliases hold no colon, so that no two links share a key of the cache or of the edge. -/
theorem cacheKey_inj {domain domain' linkAlias linkAlias' : String}
    (hplain : ':' ∉ linkAlias.toList) (hplain' : ':' ∉ linkAlias'.toList)
    (h : cacheKey domain linkAlias = cacheKey domain' linkAlias') :
    domain = domain' ∧ linkAlias = linkAlias' := joined_inj hplain hplain' h

/-- Within a domain, keys are as different as aliases. -/
theorem linkAlias_of_cacheKey {domain linkAlias linkAlias' : String}
    (h : cacheKey domain linkAlias = cacheKey domain linkAlias') : linkAlias = linkAlias' := by
  have hlist := congrArg String.toList h
  simp only [cacheKey, String.toList_append, List.append_cancel_left_eq] at hlist
  exact String.ext hlist

theorem UrlCache.key_eq_iff {domain domain' linkAlias linkAlias' : String} :
    UrlCache.key linkAlias domain = UrlCache.key linkAlias' domain' ↔
      cacheKey domain linkAlias = cacheKey domain' linkAlias' := by
  constructor <;>
  · intro h
    have hlist := congrArg String.toList h
    simp only [UrlCache.key, cacheKey, String.toList_append, List.append_assoc,
      List.append_cancel_left_eq] at hlist
    refine String.ext ?_
    simp only [UrlCache.key, cacheKey, String.toList_append, List.append_assoc,
      List.append_cancel_left_eq]
    exact hlist

/-! ## Eligibility -/

/-- Why the link must not be edge-cached, by its current projection. -/
def UrlRow.skipReason (row : UrlRow) (systemDomain : String) (now : Int) : Option String :=
  promotionSkipReason (.fromV2Doc (.fromMongo row)) row.domain systemDomain now

/-- The reasons that come from a field whose change leaves the edge alone. -/
def restrictions : List String :=
  ["password_protected", "max_clicks", "block_bots", "has_expiration", "ab_variants"]

/-- The link is switched on and its start time has come. -/
def UrlRow.IsLive (row : UrlRow) (now : Int) : Prop :=
  row.status = .active ∧
    (UrlCacheData.fromV2Doc (.fromMongo row)).isNotYetLive now = false

theorem isNotYetLive_of_later {data : UrlCacheData} {now later : Int} (hle : now ≤ later)
    (h : data.isNotYetLive now = false) : data.isNotYetLive later = false := by
  unfold UrlCacheData.isNotYetLive at h ⊢
  cases hstart : data.startTime with
  | none => rfl
  | some start =>
    rw [hstart] at h
    have hstarted : ¬now < start * 1000000 := of_decide_eq_false h
    exact decide_eq_false (by omega)

section

variable {row row' : UrlRow} {systemDomain : String} {now later : Int}

/-- A check that gives a reason to skip. -/
private theorem skip_eq_none {α : Type} {c : Prop} [Decidable c] {reason : α} {rest : Option α} :
    (if c then some reason else rest) = none ↔ ¬c ∧ rest = none := by
  split <;> simp [*]

theorem promotionSkipReason_eq_none_iff {url : UrlCacheData} {hotDomain : String} :
    promotionSkipReason url hotDomain systemDomain now = none ↔
      hotDomain = systemDomain ∧ url.urlStatus = .active ∧
        url.passwordHash.any (· ≠ "") = false ∧ url.maxClicks.any (· ≠ 0) = false ∧
        url.blockBots = false ∧ url.expirationTime.any (· ≠ 0) = false ∧
        url.isNotYetLive now = false ∧ url.abVariants.any (· ≠ []) = false := by
  simp only [promotionSkipReason, skip_eq_none, not_not, and_true, Bool.not_eq_true]

/-- A live link of the system domain is eligible, or one of the restrictions holds it back. -/
theorem UrlRow.IsLive.skipReason (hlive : row.IsLive now) (hdomain : row.domain = systemDomain) :
    row.skipReason systemDomain now = none ∨
      ∃ reason ∈ restrictions, row.skipReason systemDomain now = some reason := by
  obtain ⟨hactive, hstarted⟩ := hlive
  have hstatus : (UrlCacheData.fromV2Doc (.fromMongo row)).urlStatus = .active := hactive
  unfold UrlRow.skipReason promotionSkipReason
  rw [if_neg (not_not.2 hdomain), if_neg (not_not.2 hstatus)]
  simp only [hstarted, Bool.false_eq_true, if_false]
  repeat' split
  all_goals simp [restrictions]

theorem isLive_of_skipReason (h : row.skipReason systemDomain now = none) : row.IsLive now := by
  obtain ⟨-, hactive, -, -, -, -, hstarted, -⟩ := promotionSkipReason_eq_none_iff.1 h
  exact ⟨hactive, hstarted⟩

theorem isLive_of_later (hle : now ≤ later) (h : row.IsLive now) : row.IsLive later :=
  ⟨h.1, isNotYetLive_of_later hle h.2⟩

/-- An eligible link stays eligible as time passes. -/
theorem skipReason_of_later (hle : now ≤ later) (h : row.skipReason systemDomain now = none) :
    row.skipReason systemDomain later = none := by
  unfold UrlRow.skipReason at h ⊢
  rw [promotionSkipReason_eq_none_iff] at h ⊢
  obtain ⟨hdomain, hactive, hpassword, hclicks, hbots, hexpiry, hstarted, hvariants⟩ := h
  exact ⟨hdomain, hactive, hpassword, hclicks, hbots, hexpiry,
    isNotYetLive_of_later hle hstarted, hvariants⟩

end

/-! ## What an update does to the edge -/

section

variable {edge : EdgeConfig} {kv : EdgeKv} {key : String} {now later : Int} {existing : UrlV2Doc}
  {ops : UrlOps}

theorem serves_ogRemove {systemDomain domain linkAlias : String}
    (h : (ogRemove kv systemDomain domain linkAlias).serves key later = true) :
    kv.serves key later = true ∧ (domain = systemDomain → key ≠ cacheKey domain linkAlias) := by
  unfold ogRemove at h
  split at h
  · rename_i hdomain
    exact ⟨h, fun heq => absurd heq hdomain⟩
  · obtain ⟨hne, h⟩ := EdgeKv.serves_delete.1 h
    exact ⟨h, fun _ => hne⟩

/-- The write-through leaves no redirect at the key of the link. -/
theorem serves_ogSync {render : UrlCacheData → String} {systemDomain : String} {ogTtl : Int}
    {url : UrlCacheData}
    (h : (ogSync render kv systemDomain ogTtl url now).serves key later = true) :
    kv.serves key later = true ∧
      (url.domain = systemDomain → key ≠ cacheKey url.domain url.linkAlias) := by
  unfold ogSync at h
  split at h
  · rename_i hdomain
    exact ⟨h, fun heq => absurd heq hdomain⟩
  · split at h
    · rcases EdgeKv.serves_put h with ⟨-, hredirect⟩ | ⟨hne, h⟩
      · cases hredirect
      · exact ⟨h, fun _ => hne⟩
    · obtain ⟨hne, h⟩ := EdgeKv.serves_delete.1 h
      exact ⟨h, fun _ => hne⟩

theorem serves_purgeEdgeKey {domain linkAlias : String}
    (h : (UrlService.purgeEdgeKey edge kv domain linkAlias).serves key later = true) :
    kv.serves key later = true ∧ (edge.enabled = true → domain = edge.systemDefaultDomain →
      key ≠ cacheKey domain linkAlias) := by
  unfold UrlService.purgeEdgeKey at h
  split at h
  · rename_i hskip
    refine ⟨h, fun henabled hdomain => ?_⟩
    simp [henabled, hdomain] at hskip
  · obtain ⟨hne, h⟩ := EdgeKv.serves_delete.1 h
    exact ⟨h, fun _ _ => hne⟩

/-- An update writes no redirects. -/
theorem serves_updateEdge
    (h : (UrlService.updateEdge edge existing ops now kv).serves key later = true) :
    kv.serves key later = true := by
  unfold UrlService.updateEdge at h
  dsimp only at h
  split at h
  · split at h
    · have hsync := (serves_ogSync h).1
      split at hsync
      · exact (serves_ogRemove hsync).1
      · exact hsync
    · exact h
  · split at h
    · exact (serves_purgeEdgeKey h).1
    · exact h

/-- Where an update leaves the redirect of the link in place, the link keeps its key and its
start time, and is not switched off. -/
theorem keeps_of_serves_updateEdge (henabled : edge.enabled = true)
    (hdomain : existing.domain = edge.systemDefaultDomain)
    (h : (UrlService.updateEdge edge existing ops now kv).serves
      (cacheKey existing.domain existing.linkAlias) later = true) :
    UrlService.keyChanges existing ops = false ∧ ops.status ≠ some .inactive ∧
      ops.startsAt = none := by
  unfold UrlService.updateEdge at h
  dsimp only at h
  split at h
  · split at h
    · exfalso
      obtain ⟨hkept, hsynced⟩ := serves_ogSync h
      cases hkey : UrlService.keyChanges existing ops with
      | true =>
        rw [hkey, if_pos rfl] at hkept
        exact (serves_ogRemove hkept).2 hdomain rfl
      | false =>
        simp only [UrlService.keyChanges, ne_eq, decide_eq_false_iff_not, not_not,
          Prod.mk.injEq] at hkey
        refine hsynced ?_ ?_
        · exact hkey.2.trans hdomain
        · rw [← hkey.1, ← hkey.2]
          rfl
    · rename_i hirrelevant
      simp only [UrlService.ogRelevant, Bool.or_eq_true, not_or, Bool.not_eq_true,
        Option.isSome_eq_false_iff, Option.isNone_iff_eq_none] at hirrelevant
      obtain ⟨⟨⟨⟨⟨-, -⟩, hstatus⟩, halias⟩, hdom⟩, hstarts⟩ := hirrelevant
      refine ⟨?_, ?_, hstarts⟩
      · simp [UrlService.keyChanges, halias, hdom]
      · rw [hstatus]
        exact nofun
  · rename_i hplain
    split at h
    · exact absurd rfl ((serves_purgeEdgeKey h).2 henabled hdomain)
    · rename_i hkept
      simp only [henabled, Bool.true_and, Bool.not_eq_true] at hplain
      simp only [hplain, Bool.not_false, Bool.true_and, Bool.or_eq_true, decide_eq_true_eq,
        not_or, Bool.not_eq_true, Option.isSome_eq_false_iff,
        Option.isNone_iff_eq_none] at hkept
      obtain ⟨⟨hstatus, hstarts⟩, hkey⟩ := hkept
      exact ⟨hkey, hstatus, hstarts⟩

end

/-! ## What the operations of an update carry -/

/-- The request names a field whose change can make the link ineligible while the edge is left
alone. -/
def UpdateUrlRequest.restricts (request : UpdateUrlRequest) : Bool :=
  request.password.isSome || request.maxClicks.isSome || request.expireAfter.isSome ||
    request.blockBots.isSome || request.abVariants.isSome

/-- The operations agree on these fields. -/
structure UrlOps.SameRestrictions (ops ops' : UrlOps) : Prop where
  password : ops'.password = ops.password
  maxClicks : ops'.maxClicks = ops.maxClicks
  expireAfter : ops'.expireAfter = ops.expireAfter
  blockBots : ops'.blockBots = ops.blockBots
  abVariants : ops'.abVariants = ops.abVariants

theorem UrlOps.SameRestrictions.trans {ops ops' ops'' : UrlOps} (h : SameRestrictions ops ops')
    (h' : SameRestrictions ops' ops'') : SameRestrictions ops ops'' where
  password := h'.password.trans h.password
  maxClicks := h'.maxClicks.trans h.maxClicks
  expireAfter := h'.expireAfter.trans h.expireAfter
  blockBots := h'.blockBots.trans h.blockBots
  abVariants := h'.abVariants.trans h.abVariants

/-- Every new alias has passed the alias check. -/
def UrlOps.Canonical (env : UpdateEnv) (ops : UrlOps) : Prop :=
  ∀ a, ops.linkAlias = some a → ∃ requested, env.canonicalAlias requested = .ok a

section

variable {env : UpdateEnv} {now : Int} {request : UpdateUrlRequest} {existing : UrlV2Doc}
  {ops ops' : UrlOps}

/-- A handler leaves the restrictions alone if the request does. -/
theorem FieldWrite.sameRestrictions (hreq : request.restricts = false)
    (h : FieldWrite env request ops ops') : ops.SameRestrictions ops' := by
  simp only [UpdateUrlRequest.restricts, Bool.or_eq_false_iff] at hreq
  obtain ⟨⟨⟨⟨hpassword, hclicks⟩, hexpiry⟩, hbots⟩, hvariants⟩ := hreq
  cases h with
  | password _ named => simp [hpassword] at named
  | maxClicks _ named => simp [hclicks] at named
  | expireAfter _ named => simp [hexpiry] at named
  | blockBots _ named => simp [hbots] at named
  | abVariants _ named => simp [hvariants] at named
  | _ => constructor <;> rfl

theorem FieldWrite.canonical (hops : ops.Canonical env) (h : FieldWrite env request ops ops') :
    ops'.Canonical env := by
  cases h with
  | linkAlias _ _ checked =>
    intro a ha
    rcases checked a ha with hold | hnew
    · exact hops a hold
    · exact hnew
  | _ => exact hops

theorem sameRestrictions_buildOps {clientIp : Option String} (hreq : request.restricts = false)
    (h : buildOps env now request clientIp existing = .ok ops) :
    UrlOps.SameRestrictions {} ops := by
  obtain ⟨collected, hcollect, rfl⟩ := buildOps_collected h
  have hcollected : UrlOps.SameRestrictions {} collected := by
    refine foldlM_invariant (P := UrlOps.SameRestrictions {}) ?_ (by constructor <;> rfl) hcollect
    exact fun _ hmem _ _ ha hb => ha.trans ((handler_writes hmem hb).sameRestrictions hreq)
  obtain ⟨_, _, _, hfinish⟩ := collected.finish_writes env.lib clientIp
  rw [hfinish]
  exact hcollected.trans (by constructor <;> rfl)

theorem canonical_buildOps {clientIp : Option String}
    (h : buildOps env now request clientIp existing = .ok ops) : ops.Canonical env := by
  obtain ⟨collected, hcollect, rfl⟩ := buildOps_collected h
  have hcollected : collected.Canonical env := by
    refine foldlM_invariant (P := UrlOps.Canonical env) ?_ (fun _ ha => by cases ha) hcollect
    exact fun _ hmem _ _ ha hb => (handler_writes hmem hb).canonical ha
  obtain ⟨_, _, _, hfinish⟩ := collected.finish_writes env.lib clientIp
  rw [hfinish]
  exact hcollected

end

/-! ## The invariant -/

/-- The aliases hold no colon, the cache holds the current projection of each link under its own
key, and each redirect the edge serves at time `now` on the system domain belongs to a link that
meets `P`. -/
structure EdgeSound (edge : EdgeConfig) (P : UrlRow → Prop) (now : Int) (s : Stores) : Prop where
  plain : ∀ row ∈ s.urls.docs, ':' ∉ row.linkAlias.toList
  cached : ∀ key data, s.cache.entries key = some data → ∃ row ∈ s.urls.docs,
    UrlCache.key row.linkAlias row.domain = key ∧
      UrlCacheData.fromV2Doc (.fromMongo row) = data
  served : ∀ code, ':' ∉ code.toList →
    s.kv.serves (cacheKey edge.systemDefaultDomain code) now = true →
      edge.enabled = true ∧ ∃ row ∈ s.urls.docs,
        row.domain = edge.systemDefaultDomain ∧ row.linkAlias = code ∧ P row

/-- The aliases an environment admits hold no colon. -/
def UpdateEnv.PlainAliases (env : UpdateEnv) : Prop :=
  ∀ requested a, env.canonicalAlias requested = .ok a → ':' ∉ a.toList

namespace EdgeSound

variable {edge : EdgeConfig} {P Q : UrlRow → Prop} {now later : Int} {s : Stores}

theorem of_later (hinv : EdgeSound edge P now s) (hle : now ≤ later) (hP : ∀ row, P row → Q row) :
    EdgeSound edge Q later s where
  plain := hinv.plain
  cached := hinv.cached
  served code hcode hserves := by
    obtain ⟨henabled, row, hrow, hdomain, halias, hrowP⟩ :=
      hinv.served code hcode (EdgeKv.serves_of_later hle hserves)
    exact ⟨henabled, row, hrow, hdomain, halias, hP row hrowP⟩

theorem fillCache (hinv : EdgeSound edge P now s) (shortCode domain : String) :
    EdgeSound edge P now (UrlService.fillCache shortCode domain s) := by
  unfold UrlService.fillCache
  split
  · exact hinv
  · split
    · rename_i data hdata
      refine ⟨hinv.plain, fun key other hother => ?_, hinv.served⟩
      simp only [UrlService.populateCache, UrlCache.set] at hother
      split at hother
      · rename_i hkey
        cases hother
        obtain ⟨doc, hdoc, rfl⟩ := Option.map_eq_some_iff.1 hdata
        obtain ⟨row, hrow, rfl⟩ := Option.map_eq_some_iff.1 hdoc
        have hsel := List.find?_some hrow
        have halias : row.linkAlias = shortCode := by
          simp only [matches_aliasClause, decide_eq_true_eq, Prod.mk.injEq] at hsel
          exact hsel.1
        refine ⟨row, List.mem_of_find?_eq_some hrow, ?_, rfl⟩
        rw [hkey, halias]
        rfl
      · exact hinv.cached key other hother
    · exact hinv

theorem promote (hinv : EdgeSound edge P now s) (henabled : edge.enabled = true)
    (hP : ∀ row, row.skipReason edge.systemDefaultDomain now = none → P row)
    (hotDomain hotShortCode : String) (ttl : Int) :
    EdgeSound edge P now { s with
      kv := Spoo.promote edge.render s.cache s.kv edge.systemDefaultDomain hotDomain hotShortCode
        ttl now } := by
  refine ⟨hinv.plain, hinv.cached, fun code hcode hserves => ?_⟩
  simp only [Spoo.promote] at hserves
  split at hserves
  · exact hinv.served code hcode hserves
  · rename_i data hdata
    split at hserves
    · exact hinv.served code hcode hserves
    · rename_i heligible
      rcases EdgeKv.serves_put hserves with ⟨hkey, -⟩ | ⟨-, hold⟩
      · obtain ⟨row, hrow, hrowKey, rfl⟩ := hinv.cached _ data hdata
        have hdomain : hotDomain = edge.systemDefaultDomain :=
          (promotionSkipReason_eq_none_iff.1 heligible).1
        rw [UrlCache.key_eq_iff, ← hkey] at hrowKey
        obtain ⟨hrowDomain, hrowAlias⟩ := cacheKey_inj (hinv.plain row hrow) hcode hrowKey
        refine ⟨henabled, row, hrow, hrowDomain, hrowAlias, hP row ?_⟩
        rw [hdomain] at heligible
        rw [UrlRow.skipReason, hrowDomain]
        exact heligible
      · exact hinv.served code hcode hold

theorem update {env : UpdateEnv} {urlId ownerId : ObjectId} {request : UpdateUrlRequest}
    {clientIp : Option String} (hinv : EdgeSound edge P now s) (hplain : env.PlainAliases)
    (hP : ∀ row built, s.urls.lookup urlId = some row →
      row.domain = edge.systemDefaultDomain →
      s.kv.serves (cacheKey row.domain row.linkAlias) now = true →
      buildOps env now request clientIp (.fromMongo row) = .ok built →
      built.domain.getD row.domain = row.domain → built.status ≠ some .inactive →
      built.startsAt = none → P row →
      P (({ built with updatedAt := some now } : UrlOps).toUpdate.apply row)) :
    EdgeSound edge P now (UrlService.update env edge urlId request ownerId clientIp now s).2 := by
  rcases @UrlService.update_cases env edge urlId ownerId request clientIp now s with
    hsame | ⟨row, built, urls, hrow, hbuild, hwrite, hurls, hkv, hcache⟩
  · rw [hsame]
    exact hinv
  have hdocs := docs_updateManyUnique hwrite
  have htarget : (({ built with updatedAt := some now } : UrlOps).toUpdate.apply row) ∈
      urls.docs := by
    have hid : row.id = urlId := (lookup_eq_some_iff.1 hrow).2
    rw [hdocs]
    exact List.mem_map.2 ⟨row, (lookup_eq_some_iff.1 hrow).1,
      applyWhere_of_matches _ (by simpa using hid)⟩
  have hothers {row₂ : UrlRow} (hmem : row₂ ∈ s.urls.docs) (hne : row₂.id ≠ urlId) :
      row₂ ∈ urls.docs := by
    rw [hdocs]
    exact List.mem_map.2 ⟨row₂, hmem, applyWhere_of_not_matches _ (by simpa using hne)⟩
  have hthe {row₂ : UrlRow} (hmem : row₂ ∈ s.urls.docs) (hid : row₂.id = urlId) : row₂ = row := by
    have hfound := lookup_eq_some_iff.2 ⟨hmem, hid⟩
    exact Option.some.inj (hfound.symm.trans hrow)
  refine ⟨fun row' hrow' => ?_, fun key data hdata => ?_, fun code hcode hserves => ?_⟩
  · rw [hurls, hdocs, List.mem_map] at hrow'
    obtain ⟨row₂, hmem, rfl⟩ := hrow'
    by_cases hid : row₂.id = urlId
    · rw [applyWhere_of_matches _ (by simpa using hid)]
      cases halias : built.linkAlias with
      | none =>
        simp only [UrlOps.toUpdate, Option.getD_none]
        exact hinv.plain row₂ hmem
      | some a =>
        simp only [UrlOps.toUpdate, Option.getD_some]
        obtain ⟨requested, hcanonical⟩ := canonical_buildOps hbuild a halias
        exact hplain requested a hcanonical
    · rw [applyWhere_of_not_matches _ (by simpa using hid)]
      exact hinv.plain row₂ hmem
  · obtain ⟨hold, hne⟩ := hcache key data hdata
    obtain ⟨row₂, hmem, hkey, hproj⟩ := hinv.cached key data hold
    rw [hurls]
    refine ⟨row₂, hothers hmem fun hid => hne ?_, hkey, hproj⟩
    rw [← hkey, hthe hmem hid]
  · rw [hkv] at hserves
    obtain ⟨henabled, row₂, hmem, hdomain, halias, hrowP⟩ :=
      hinv.served code hcode (serves_updateEdge hserves)
    rw [hurls]
    by_cases hid : row₂.id = urlId
    · obtain rfl := hthe hmem hid
      subst halias
      rw [← hdomain] at hserves
      obtain ⟨hkey, hstatus, hstarts⟩ := keeps_of_serves_updateEdge henabled hdomain hserves
      simp only [UrlService.keyChanges, ne_eq, decide_eq_false_iff_not, not_not,
        Prod.mk.injEq] at hkey
      refine ⟨henabled, _, htarget, hkey.2.trans hdomain, hkey.1, ?_⟩
      exact hP row₂ built hrow hdomain (serves_updateEdge hserves) hbuild hkey.2 hstatus hstarts
        hrowP
    · exact ⟨henabled, row₂, hothers hmem hid, hdomain, halias, hrowP⟩

end EdgeSound

/-! ## Runs -/

/-- The stores and the clock. -/
structure EdgeWorld where
  stores : Stores
  clock : Int

/-- What may happen: a redirect fills the cache, a hot link is promoted, an owner updates a
link. Promotions are registered where the edge is enabled. -/
inductive EdgeOp where
  | fill (shortCode domain : String)
  | promote (hotDomain hotShortCode : String) (ttl : Int)
  | update (env : UpdateEnv) (urlId : ObjectId) (request : UpdateUrlRequest)
      (ownerId : ObjectId) (clientIp : Option String)

namespace EdgeOp

/-- Run one operation at time `now`. -/
def apply (edge : EdgeConfig) (now : Int) (s : Stores) : EdgeOp → Stores
  | fill shortCode domain => UrlService.fillCache shortCode domain s
  | promote hotDomain hotShortCode ttl =>
    if edge.enabled then
      { s with
        kv := Spoo.promote edge.render s.cache s.kv edge.systemDefaultDomain hotDomain
          hotShortCode ttl now }
    else s
  | update env urlId request ownerId clientIp =>
    (UrlService.update env edge urlId request ownerId clientIp now s).2

/-- Some time passes, then an operation runs. -/
def step (edge : EdgeConfig) (w : EdgeWorld) (op : Nat × EdgeOp) : EdgeWorld where
  stores := op.2.apply edge (w.clock + op.1) w.stores
  clock := w.clock + op.1

/-- The aliases it may write hold no colon. -/
def PlainAliases : EdgeOp → Prop
  | update env _ _ _ _ => env.PlainAliases
  | _ => True

/-- It is an update of the link that names a restriction, while the edge redirects the link. -/
def RestrictsServed (edge : EdgeConfig) (urlId : ObjectId) (w : EdgeWorld) :
    Nat × EdgeOp → Prop
  | (delay, update _ target request _ _) => target = urlId ∧ request.restricts = true ∧
      ∃ row, w.stores.urls.lookup urlId = some row ∧ row.domain = edge.systemDefaultDomain ∧
        w.stores.kv.serves (cacheKey row.domain row.linkAlias) (w.clock + delay) = true
  | _ => False

end EdgeOp

section

variable {env : UpdateEnv} {request : UpdateUrlRequest} {clientIp : Option String}
  {built : UrlOps} {row : UrlRow} {systemDomain : String} {now : Int}

/-- An update that keeps the start time and does not switch the link off keeps it live. -/
theorem UrlRow.IsLive.toUpdate (hlive : row.IsLive now)
    (hbuild : buildOps env now request clientIp (.fromMongo row) = .ok built)
    (hstatus : built.status ≠ some .inactive) (hstarts : built.startsAt = none) :
    (({ built with updatedAt := some now } : UrlOps).toUpdate.apply row).IsLive now := by
  obtain ⟨hactive, hstarted⟩ := hlive
  refine ⟨?_, ?_⟩
  · have hwanted := (edits_buildOps hbuild).1.status
    cases hst : built.status with
    | none => simpa [UrlOps.toUpdate, hst] using hactive
    | some status =>
      rcases hwanted status hst with rfl | rfl
      · rfl
      · exact absurd hst hstatus
  · unfold UrlCacheData.isNotYetLive at hstarted ⊢
    simpa [UrlOps.toUpdate, hstarts, UrlCacheData.fromV2Doc, UrlV2Doc.fromMongo] using hstarted

/-- If moreover it names no restriction, an eligible link stays eligible. -/
theorem skipReason_toUpdate (hnone : row.skipReason systemDomain now = none)
    (hreq : request.restricts = false)
    (hbuild : buildOps env now request clientIp (.fromMongo row) = .ok built)
    (hdomain : built.domain.getD row.domain = row.domain)
    (hstatus : built.status ≠ some .inactive) (hstarts : built.startsAt = none) :
    (({ built with updatedAt := some now } : UrlOps).toUpdate.apply row).skipReason
      systemDomain now = none := by
  obtain ⟨hactive, hstarted⟩ :=
    (isLive_of_skipReason hnone).toUpdate hbuild hstatus hstarts
  obtain ⟨hpassword, hclicks, hexpiry, hbots, hvariants⟩ :=
    sameRestrictions_buildOps hreq hbuild
  unfold UrlRow.skipReason at hnone ⊢
  rw [promotionSkipReason_eq_none_iff] at hnone ⊢
  obtain ⟨hsystem, -, hnoPassword, hnoClicks, hnoBots, hnoExpiry, -, hnoVariants⟩ := hnone
  refine ⟨hdomain.trans hsystem, hactive, ?_, ?_, ?_, ?_, hstarted, ?_⟩
  · simpa [UrlOps.toUpdate, UrlCacheData.fromV2Doc, UrlV2Doc.fromMongo, hpassword] using
      hnoPassword
  · simpa [UrlOps.toUpdate, UrlCacheData.fromV2Doc, UrlV2Doc.fromMongo, hclicks] using
      hnoClicks
  · simpa [UrlOps.toUpdate, UrlCacheData.fromV2Doc, UrlV2Doc.fromMongo, hbots] using
      hnoBots
  · simpa [UrlOps.toUpdate, UrlCacheData.fromV2Doc, UrlV2Doc.fromMongo, hexpiry] using
      hnoExpiry
  · simpa [UrlOps.toUpdate, UrlCacheData.fromV2Doc, UrlV2Doc.fromMongo, hvariants] using
      hnoVariants

end

/-- A property of links at a time that an eligible link has and that lasts. -/
structure EdgeProperty (edge : EdgeConfig) (P : Int → UrlRow → Prop) : Prop where
  lasts : ∀ now later row, now ≤ later → P now row → P later row
  eligible : ∀ now row, row.skipReason edge.systemDefaultDomain now = none → P now row

section

variable {edge : EdgeConfig} {P : Int → UrlRow → Prop} {w : EdgeWorld}

/-- What one operation preserves, as long as an update that leaves the redirect of its link in
place preserves the property of that link. -/
theorem EdgeSound.step (hP : EdgeProperty edge P) (op : Nat × EdgeOp)
    (hinv : EdgeSound edge (P w.clock) w.clock w.stores) (hplain : op.2.PlainAliases)
    (hupdate : ∀ env urlId request ownerId clientIp,
      op.2 = .update env urlId request ownerId clientIp → ∀ row built,
      w.stores.urls.lookup urlId = some row → row.domain = edge.systemDefaultDomain →
      w.stores.kv.serves (cacheKey row.domain row.linkAlias) (w.clock + op.1) = true →
      buildOps env (w.clock + op.1) request clientIp (.fromMongo row) = .ok built →
      built.domain.getD row.domain = row.domain → built.status ≠ some .inactive →
      built.startsAt = none → P (w.clock + op.1) row →
      P (w.clock + op.1)
        (({ built with updatedAt := some (w.clock + op.1) } : UrlOps).toUpdate.apply row)) :
    EdgeSound edge (P (EdgeOp.step edge w op).clock) (EdgeOp.step edge w op).clock
      (EdgeOp.step edge w op).stores := by
  obtain ⟨delay, op⟩ := op
  have hle : w.clock ≤ w.clock + delay := by omega
  have hthen : EdgeSound edge (P (w.clock + delay)) (w.clock + delay) w.stores :=
    hinv.of_later hle fun row => hP.lasts _ _ row hle
  cases op with
  | fill shortCode domain => exact hthen.fillCache shortCode domain
  | promote hotDomain hotShortCode ttl =>
    dsimp only [EdgeOp.step, EdgeOp.apply]
    split
    · rename_i henabled
      exact hthen.promote henabled (hP.eligible _) hotDomain hotShortCode ttl
    · exact hthen
  | update env urlId request ownerId clientIp =>
    exact hthen.update hplain (hupdate env urlId request ownerId clientIp rfl)

/-- Whatever happens, the edge redirects live links only. -/
theorem edgeProperty_isLive : EdgeProperty edge fun now row => row.IsLive now where
  lasts _ _ _ hle hlive := isLive_of_later hle hlive
  eligible _ _ hnone := isLive_of_skipReason hnone

theorem edgeProperty_eligible (urlId : ObjectId) : EdgeProperty edge fun now row =>
    row.id = urlId → row.skipReason edge.systemDefaultDomain now = none where
  lasts _ _ _ hle hnone hid := skipReason_of_later hle (hnone hid)
  eligible _ _ hnone _ := hnone

theorem EdgeSound.step_isLive (op : Nat × EdgeOp)
    (hinv : EdgeSound edge (·.IsLive w.clock) w.clock w.stores) (hplain : op.2.PlainAliases) :
    EdgeSound edge (·.IsLive (EdgeOp.step edge w op).clock) (EdgeOp.step edge w op).clock
      (EdgeOp.step edge w op).stores := by
  refine EdgeSound.step edgeProperty_isLive op hinv hplain ?_
  intro env urlId request ownerId clientIp _ row built _ _ _ hbuild _ hstatus hstarts hlive
  exact hlive.toUpdate hbuild hstatus hstarts

theorem EdgeSound.step_eligible {urlId : ObjectId} (op : Nat × EdgeOp)
    (hinv : EdgeSound edge (fun row => row.id = urlId →
      row.skipReason edge.systemDefaultDomain w.clock = none) w.clock w.stores)
    (hplain : op.2.PlainAliases) (hfree : ¬EdgeOp.RestrictsServed edge urlId w op) :
    EdgeSound edge (fun row => row.id = urlId →
        row.skipReason edge.systemDefaultDomain (EdgeOp.step edge w op).clock = none)
      (EdgeOp.step edge w op).clock (EdgeOp.step edge w op).stores := by
  refine EdgeSound.step (edgeProperty_eligible urlId) op hinv hplain ?_
  intro env target request ownerId clientIp hop row built hrow hsystem hserves hbuild hdomain
    hstatus hstarts hnone hid
  have hid' : row.id = urlId := hid
  have htarget : target = urlId := (lookup_eq_some_iff.1 hrow).2.symm.trans hid'
  have hreq : request.restricts = false := by
    by_contra hrestricts
    refine hfree ?_
    obtain ⟨delay, op⟩ := op
    cases hop
    exact ⟨htarget, by simpa using hrestricts, row, htarget ▸ hrow, hsystem, hserves⟩
  exact skipReason_toUpdate (hnone hid') hreq hbuild hdomain hstatus hstarts

end

/-- The link that a redirect of the edge belongs to meets the property. -/
theorem EdgeSound.of_serves {edge : EdgeConfig} {P : UrlRow → Prop} {now : Int} {s : Stores}
    (hinv : EdgeSound edge P now s) {row : UrlRow} (hrow : row ∈ s.urls.docs)
    (hdomain : row.domain = edge.systemDefaultDomain)
    (hserves : s.kv.serves (cacheKey row.domain row.linkAlias) now = true) : P row := by
  rw [hdomain] at hserves
  obtain ⟨-, owner, howner, hownerDomain, halias, hP⟩ :=
    hinv.served row.linkAlias (hinv.plain row hrow) hserves
  have hkey : (owner.domain, owner.linkAlias) = (row.domain, row.linkAlias) := by
    rw [hownerDomain, halias, hdomain]
  have hsame : owner = row := List.inj_on_of_nodup_map s.urls.nodup_key howner hrow hkey
  exact hsame ▸ hP

/-- After every run of promotions and updates a link of the system domain that the edge redirects
is eligible or held back by one of the restrictions. It is eligible unless an update of the
link named a restriction while the edge was redirecting it. -/
theorem edge_redirects_eligible (edge : EdgeConfig) (w : EdgeWorld) (ops : List (Nat × EdgeOp))
    (later : Int) (row : UrlRow)
    (hstart : EdgeSound edge
      (fun row => row.skipReason edge.systemDefaultDomain w.clock = none) w.clock w.stores)
    (hplain : ∀ op ∈ ops, op.2.PlainAliases)
    (hlater : (ops.foldl (EdgeOp.step edge) w).clock ≤ later)
    (hrow : row ∈ (ops.foldl (EdgeOp.step edge) w).stores.urls.docs)
    (hdomain : row.domain = edge.systemDefaultDomain)
    (hserves : (ops.foldl (EdgeOp.step edge) w).stores.kv.serves
      (cacheKey row.domain row.linkAlias) later = true) :
    (row.skipReason edge.systemDefaultDomain later = none ∨ ∃ reason ∈ restrictions,
      row.skipReason edge.systemDefaultDomain later = some reason) ∧
    (Run.Guarded (EdgeOp.step edge)
        (fun w op => ¬EdgeOp.RestrictsServed edge row.id w op) w ops →
      row.skipReason edge.systemDefaultDomain later = none) := by
  have hguard : Run.Guarded (EdgeOp.step edge) (fun _ op => op.2.PlainAliases) w ops :=
    Run.guarded_of_forall hplain
  constructor
  · have hrun : EdgeSound edge (·.IsLive (ops.foldl (EdgeOp.step edge) w).clock)
        (ops.foldl (EdgeOp.step edge) w).clock (ops.foldl (EdgeOp.step edge) w).stores := by
      refine Run.foldl_invariant
        (P := fun w : EdgeWorld => EdgeSound edge (·.IsLive w.clock) w.clock w.stores)
        (fun w op hinv hop => hinv.step_isLive op hop) ?_ hguard
      exact hstart.of_later le_rfl fun _ => isLive_of_skipReason
    have hlive : row.IsLive later :=
      (hrun.of_later hlater fun _ => isLive_of_later hlater).of_serves hrow hdomain hserves
    exact hlive.skipReason hdomain
  · intro hfree
    have hrun : EdgeSound edge (fun other => other.id = row.id →
          other.skipReason edge.systemDefaultDomain (ops.foldl (EdgeOp.step edge) w).clock = none)
        (ops.foldl (EdgeOp.step edge) w).clock (ops.foldl (EdgeOp.step edge) w).stores := by
      refine Run.foldl_invariant
        (P := fun w : EdgeWorld => EdgeSound edge (fun other => other.id = row.id →
          other.skipReason edge.systemDefaultDomain w.clock = none) w.clock w.stores)
        (fun w op hinv hop => hinv.step_eligible op hop.1 hop.2) ?_ (hguard.and hfree)
      exact hstart.of_later le_rfl fun _ hnone _ => hnone
    have heligible := hrun.of_later (Q := fun other => other.id = row.id →
      other.skipReason edge.systemDefaultDomain later = none) hlater
      fun _ hnone hid => skipReason_of_later hlater (hnone hid)
    exact heligible.of_serves hrow hdomain hserves rfl

/-- A deployment with an edge. -/
def edgeOn : EdgeConfig where
  enabled := true
  systemDefaultDomain := "spoo.me"
  ogTtlSeconds := 86400
  render _ := ""

/-- A plain link of the system domain. -/
def hotLink : UrlRow where
  id := 1
  linkAlias := "aaa"
  ownerId := 7
  domain := "spoo.me"
  longUrl := "https://a.example/p"

/-- The stores with the one link, nothing cached. -/
def hotWorld : EdgeWorld where
  stores := {
    urls := { docs := [hotLink], nodup_id := by decide, nodup_key := by decide }
    legacy := .empty
    emoji := .empty }
  clock := 0

/-- A visit fills the cache, the link is promoted, and its owner sets a password. -/
def promoteThenPassword : List (Nat × EdgeOp) := [
  (1, .fill "aaa" "spoo.me"),
  (1, .promote "spoo.me" "aaa" 300),
  (1, .update openEnv 1 { password := some (some "Secret.1") } 7 none)]

/-- The link as the update leaves it. -/
def lockedLink : UrlRow :=
  { hotLink with password := some "Secret.1", updatedAt := some (.encode 3) }

theorem edgeSound_hotWorld : EdgeSound edgeOn
    (fun row => row.skipReason edgeOn.systemDefaultDomain hotWorld.clock = none)
    hotWorld.clock hotWorld.stores where
  plain := by decide
  cached _ _ hdata := by cases hdata
  served _ _ hserves := by cases hserves

theorem plainAliases_openEnv : openEnv.PlainAliases := by
  intro requested a h
  simp only [openEnv] at h
  split at h
  · rename_i hall
    cases h
    intro hcolon
    exact absurd (List.all_eq_true.1 hall ':' hcolon) (by decide)
  · cases h

theorem plainAliases_promoteThenPassword : ∀ op ∈ promoteThenPassword, op.2.PlainAliases := by
  simp [promoteThenPassword, EdgeOp.PlainAliases, plainAliases_openEnv]

theorem edge_redirects_eligible_lockedLink :
    (lockedLink.skipReason "spoo.me" 3 = none ∨ ∃ reason ∈ restrictions,
      lockedLink.skipReason "spoo.me" 3 = some reason) ∧
    (Run.Guarded (EdgeOp.step edgeOn)
        (fun w op => ¬EdgeOp.RestrictsServed edgeOn lockedLink.id w op) hotWorld
        promoteThenPassword →
      lockedLink.skipReason "spoo.me" 3 = none) :=
  edge_redirects_eligible edgeOn hotWorld promoteThenPassword 3 lockedLink edgeSound_hotWorld
    plainAliases_promoteThenPassword (by decide) (by decide) rfl (by decide)

/-- The edge goes on redirecting a link that has been given a password. -/
theorem edge_redirects_locked_link :
    EdgeSound edgeOn
        (fun row => row.skipReason edgeOn.systemDefaultDomain hotWorld.clock = none)
        hotWorld.clock hotWorld.stores ∧
      (∀ op ∈ promoteThenPassword, op.2.PlainAliases) ∧
      lockedLink ∈ (promoteThenPassword.foldl (EdgeOp.step edgeOn) hotWorld).stores.urls.docs ∧
      (promoteThenPassword.foldl (EdgeOp.step edgeOn) hotWorld).stores.kv.serves
        (cacheKey "spoo.me" "aaa") 3 = true ∧
      lockedLink.skipReason "spoo.me" 3 = some "password_protected" :=
  ⟨edgeSound_hotWorld, plainAliases_promoteThenPassword, by decide, by decide, by decide⟩

end Spoo
