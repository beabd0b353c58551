import Spoo.Lib.Copies
import Spoo.Proofs.OwnerRaces

/-!
# What an eviction clears

`_evict` groups the links it is given by their domain and clears each group, in the redirect cache
under every domain and on the edge under the system domain.
-/

namespace Spoo.SafetyEnforcer

variable {cfg : EnforcerConfig} {pairs : List (String × String)} {systemExtra : List String}
  {v : EnforcerVars} {s : Stores} {linkAlias domain key : String}

theorem mem_appendUnder {groups : PyDict String (List String)} {domain' linkAlias' : String} :
    linkAlias ∈ ((appendUnder groups domain' linkAlias').get? domain).getD [] ↔
      linkAlias ∈ (groups.get? domain).getD [] ∨ linkAlias' = linkAlias ∧ domain' = domain := by
  rw [appendUnder, PyDict.get?_assign]
  by_cases h : domain' = domain
  · subst h
    simp [eq_comm]
  · simp [h]

/-- A group holds what was appended under its domain. -/
theorem mem_foldl_appendUnder {α : Type} (domainOf aliasOf : α → String) :
    ∀ (links : List α) (groups : PyDict String (List String)),
      linkAlias ∈ ((links.foldl (fun d link => appendUnder d (domainOf link) (aliasOf link))
        groups).get? domain).getD [] ↔
      linkAlias ∈ (groups.get? domain).getD [] ∨
        ∃ link ∈ links, aliasOf link = linkAlias ∧ domainOf link = domain
  | [], _ => by simp
  | link :: links, groups => by
    rw [List.foldl_cons, mem_foldl_appendUnder domainOf aliasOf links, mem_appendUnder]
    simp only [List.mem_cons, exists_eq_or_imp, or_assoc]

/-- The domain a link is evicted under. -/
def evictionDomain (cfg : EnforcerConfig) (domain : String) : String :=
  if domain = "" then cfg.systemDefaultDomain else domain

/-- The eviction reaches the link. -/
def Evicts (cfg : EnforcerConfig) (pairs : List (String × String)) (systemExtra : List String)
    (linkAlias domain : String) : Prop :=
  (∃ pair ∈ pairs, pair.1 = linkAlias ∧ evictionDomain cfg pair.2 = domain) ∨
    linkAlias ∈ systemExtra ∧ domain = cfg.systemDefaultDomain

theorem mem_byDomain : linkAlias ∈ ((byDomain cfg pairs systemExtra).get? domain).getD [] ↔
    Evicts cfg pairs systemExtra linkAlias domain := by
  have hextra := @mem_foldl_appendUnder linkAlias domain _ (fun _ => cfg.systemDefaultDomain) id
    systemExtra
  have hpairs := @mem_foldl_appendUnder linkAlias domain _
    (fun pair => evictionDomain cfg pair.2) Prod.fst pairs PyDict.empty
  refine (hextra _).trans ((or_congr hpairs Iff.rfl).trans ?_)
  simp [Evicts, PyDict.get?, eq_comm]

/-! ## The redirect cache -/

/-- The invalidations of an eviction, group by group. -/
theorem entries_foldl_invalidateMany {data : UrlCacheData} :
    ∀ (groups : List (String × List String)) (cache : UrlCache),
      (groups.foldl (fun c group => c.invalidateMany group.2 group.1) cache).entries key =
          some data ↔
        cache.entries key = some data ∧
          ∀ group ∈ groups, ∀ a ∈ group.2, UrlCache.key a group.1 ≠ key
  | [], _ => by simp
  | group :: groups, cache => by
    rw [List.foldl_cons, entries_foldl_invalidateMany groups]
    simp only [UrlCache.invalidateMany, List.mem_map, List.forall_mem_cons]
    by_cases hgroup : ∃ a ∈ group.2, UrlCache.key a group.1 = key
    · obtain ⟨a, ha, hkey⟩ := hgroup
      simp only [if_pos (show ∃ a ∈ group.2, UrlCache.key a group.1 = key from ⟨a, ha, hkey⟩)]
      exact iff_of_false (fun h => nomatch h.1) fun h => h.2.1 a ha hkey
    · rw [if_neg hgroup]
      have hall : ∀ a ∈ group.2, UrlCache.key a group.1 ≠ key :=
        fun a ha hkey => hgroup ⟨a, ha, hkey⟩
      exact and_congr_right fun _ => (and_iff_right hall).symm

/-- What is left in the redirect cache. -/
theorem cached_evict {data : UrlCacheData}
    (h : (evict cfg pairs systemExtra v s).2.cache.entries key = some data) :
    s.cache.entries key = some data ∧ ∀ linkAlias domain,
      Evicts cfg pairs systemExtra linkAlias domain → UrlCache.key linkAlias domain ≠ key := by
  obtain ⟨hcached, hgroups⟩ := (entries_foldl_invalidateMany _ _).1 h
  refine ⟨hcached, fun linkAlias domain hevicts => ?_⟩
  have hmem := mem_byDomain.2 hevicts
  cases hgroup : (byDomain cfg pairs systemExtra).get? domain with
  | none => simp [hgroup] at hmem
  | some group =>
    rw [hgroup] at hmem
    exact hgroups _ (PyDict.mem_entries_of_get? hgroup) _ hmem

/-! ## The edge -/

/-- What is left on the edge. -/
theorem kv_evict {e : EdgeCacheEntry × Int}
    (h : (evict cfg pairs systemExtra v s).2.kv.entries key = some e) :
    s.kv.entries key = some e ∧ (cfg.edgeEnabled = true → ∀ linkAlias,
      Evicts cfg pairs systemExtra linkAlias cfg.systemDefaultDomain →
        cacheKey cfg.systemDefaultDomain linkAlias ≠ key) := by
  simp only [evict] at h
  split at h
  · simp only [EdgeKv.bulkDelete] at h
    split at h
    · cases h
    · rename_i hkept
      refine ⟨h, fun _ linkAlias hevicts hkey => hkept (List.mem_map.2 ⟨linkAlias, ?_, hkey⟩)⟩
      exact mem_byDomain.2 hevicts
  · rename_i hoff
    exact ⟨h, fun hon => absurd hon hoff⟩

end Spoo.SafetyEnforcer

/-! ## The moves of a block -/

namespace Spoo

open Interleave Mongo Mongo.Collection UrlRepository

namespace Block

/-- The v2 links the block evicts. -/
def evictedPairs (v : EnforcerVars) : Block → List (String × String)
  | .onHost .. => v.triples.map fun t => (t.1, t.2.1)
  | .onMatching _ matcher _ _ => SafetyEnforcer.hits matcher v
  | .onAliases pairs _ _ => pairs

/-- The v1 and emoji links it evicts. -/
def evictedCodes (cfg : EnforcerConfig) (v : EnforcerVars) : Block → List String
  | .onHost .. => v.legacyRows.map Prod.fst ++ v.emojiRows.map fun e => cfg.v2LookupCode e.1
  | .onMatching _ matcher _ _ => SafetyEnforcer.legacyHits matcher v.legacyRows ++
      (SafetyEnforcer.legacyHits matcher v.emojiRows).map cfg.v2LookupCode
  | .onAliases .. => []

/-- The block evicts the link with this alias and domain. -/
def Evicts (cfg : EnforcerConfig) (v : EnforcerVars) (block : Block)
    (linkAlias domain : String) : Prop :=
  SafetyEnforcer.Evicts cfg (block.evictedPairs v) (block.evictedCodes cfg v) linkAlias domain

/-- The write to the v1 links matches the link. -/
def MatchesLegacy (v : EnforcerVars) (row : LegacyUrlRow) : Block → Prop
  | .onHost host _ _ => (LegacyUrlRepository.blockHostFilter host).Matches row = true
  | .onMatching _ matcher _ _ =>
    row.code ∈ SafetyEnforcer.legacyHits matcher v.legacyRows ∧ row.blocked.is true = false
  | .onAliases .. => False

/-- What the next move of a block does: it reads, reports or evicts; or it writes to the v2 or to the
v1 links, with the eviction still to come. -/
inductive Move (cfg : EnforcerConfig) (block : Block) (p : Process EnforcerVars Stores)
    (s : Stores) : Prop where
  | quiet (urls : (p.step s).2.urls = s.urls) (legacy : (p.step s).2.legacy = s.legacy)
    (cache : ∀ key data, (p.step s).2.cache.entries key = some data →
      s.cache.entries key = some data)
    (kv : ∀ key e, (p.step s).2.kv.entries key = some e → s.kv.entries key = some e)
  | flips (turn : p.todo.length + block.reads = (block.calls cfg).length)
    (step : (p.step s).2 = { s with urls := (block.flip p.vars s).2.urls })
    (clears : ∀ {κ α : Type} {copy : Stores → κ → Option α} {key : κ}, (∀ v s,
      copy (SafetyEnforcer.evict cfg (block.evictedPairs p.vars)
        (block.evictedCodes cfg p.vars) v s).2 key = none) → (p.step s).1.Clears copy key)
  | flipsLegacy {legacy : LegacyUrlStore}
    (turn : p.todo.length + block.reads + 1 = (block.calls cfg).length)
    (step : (p.step s).2 = { s with legacy })
    (docs : ∀ row ∈ s.legacy.docs, ¬block.MatchesLegacy p.vars row → row ∈ legacy.docs)
    (clears : ∀ {κ α : Type} {copy : Stores → κ → Option α} {key : κ}, (∀ v s,
      copy (SafetyEnforcer.evict cfg (block.evictedPairs p.vars)
        (block.evictedCodes cfg p.vars) v s).2 key = none) → (p.step s).1.Clears copy key)

variable {cfg : EnforcerConfig} {block : Block} {p : Process EnforcerVars Stores} {s : Stores}

/-- A link that the write does not match may get a further cause. -/
theorem flipRow_of_not_matches {v : EnforcerVars} {row : UrlRow} (h : ¬block.Matches v row) :
    ∃ causes, block.flipRow v row = { row with blockedHosts := causes } := by
  have haliases (pairs : List (String × String)) (reason : String) (now : Int)
      (hnot : ¬(row.status = .active ∧ (row.linkAlias, row.domain) ∈ pairs)) :
      afterAliases pairs reason now row = row := by
    refine applyWhere_of_not_matches _ ?_
    rw [aliasesSelect, ← Bool.decide_and, decide_eq_false_iff_not]
    exact fun hmatch => hnot hmatch.symm
  cases block with
  | onHost host reason now =>
    rw [flipRow]
    by_cases hcol : Collects row
    · rw [afterBlock_of_collects hcol]
      exact ⟨_, rfl⟩
    · exact ⟨_, afterBlock_of_untouched h hcol⟩
  | onMatching => exact ⟨_, haliases _ _ _ h⟩
  | onAliases => exact ⟨_, haliases _ _ _ h⟩

theorem Move.of_eq (h : (p.step s).2 = s) : Move cfg block p s := by
  refine .quiet ?_ ?_ ?_ ?_ <;> rw [h]
  · exact fun _ _ h => h
  · exact fun _ _ h => h

/-- A link that the write to the v1 links does not match stays as it is. -/
theorem mem_of_not_matches {legacy : LegacyUrlStore} {q : LegacyUrlRow → Bool} {reason : String}
    {now : Int} {row : LegacyUrlRow} (hdocs : legacy.docs =
      s.legacy.docs.map (applyWhere q (LegacyUrlRepository.setBlocked reason now).toUpdate))
    (hrow : row ∈ s.legacy.docs) (hq : q row = false) : row ∈ legacy.docs := by
  rw [hdocs, ← applyWhere_of_not_matches _ hq]
  exact List.mem_map_of_mem hrow

/-- An eviction only deletes. -/
theorem move_of_evict {pairs : List (String × String)} {codes : List String} {v : EnforcerVars}
    {rest : List SafetyEnforcer.Call} {action : SafetyEnforcer.Call}
    (h : (action v s).2 = (SafetyEnforcer.evict cfg pairs codes v s).2) :
    Move cfg block ⟨v, action :: rest⟩ s := by
  have hurls : (action v s).2.urls = s.urls := by rw [h]; rfl
  have hlegacy : (action v s).2.legacy = s.legacy := by rw [h]; rfl
  refine .quiet hurls hlegacy (fun key data hdata => ?_) fun key e he => ?_
  · replace hdata : (action v s).2.cache.entries key = some data := hdata
    rw [h] at hdata
    exact (SafetyEnforcer.cached_evict hdata).1
  · replace he : (action v s).2.kv.entries key = some e := he
    rw [h] at he
    exact (SafetyEnforcer.kv_evict he).1

/-- A move on what neither the links nor the two caches hold. -/
theorem Move.of_frames (hurls : (p.step s).2.urls = s.urls)
    (hlegacy : (p.step s).2.legacy = s.legacy) (hcache : (p.step s).2.cache = s.cache)
    (hkv : (p.step s).2.kv = s.kv) : Move cfg block p s :=
  .quiet hurls hlegacy (fun _ _ h => by rwa [hcache] at h) (fun _ _ h => by rwa [hkv] at h)

theorem move_onHost {host reason : String} {now : Int} (s : Stores)
    (hunder : p.todo <:+ SafetyEnforcer.blockHostCalls cfg host reason now) :
    Move cfg (.onHost host reason now) p s := by
  obtain ⟨v, todo⟩ := p
  simp only [SafetyEnforcer.blockHostCalls, List.suffix_cons_iff, List.suffix_nil] at hunder
  rcases hunder with rfl | rfl | rfl | rfl | rfl | rfl | rfl | rfl | rfl | rfl
  · exact .of_eq rfl
  · exact .of_eq rfl
  · exact .of_eq rfl
  · exact .of_eq rfl
  · exact .flips rfl rfl fun h =>
      clears_tail fun _ => clears_tail fun _ => clears_head fun _ => h _ _
  · refine .flipsLegacy rfl rfl (fun row hrow hnot => ?_) fun h =>
      clears_tail fun _ => clears_head fun _ => h _ _
    exact mem_of_not_matches (q := (LegacyUrlRepository.blockHostFilter host).Matches) rfl hrow
      (Bool.eq_false_iff.2 hnot)
  · exact .of_frames rfl rfl rfl rfl
  · exact move_of_evict rfl
  · exact .of_frames rfl rfl rfl rfl
  · exact .of_eq rfl

theorem move_onMatching {host reason : String} {matcher : String → Bool} {now : Int} (s : Stores)
    (hunder : p.todo <:+ SafetyEnforcer.blockMatchingCalls cfg host matcher reason now) :
    Move cfg (.onMatching host matcher reason now) p s := by
  obtain ⟨v, todo⟩ := p
  simp only [SafetyEnforcer.blockMatchingCalls, List.suffix_cons_iff, List.suffix_nil] at hunder
  rcases hunder with rfl | rfl | rfl | rfl | rfl | rfl | rfl | rfl | rfl | rfl
  · exact .of_eq rfl
  · exact .of_eq rfl
  · exact .of_eq rfl
  · exact .of_eq rfl
  · exact .flips rfl rfl fun h =>
      clears_tail fun _ => clears_tail fun _ => clears_head fun _ => h _ _
  · refine .flipsLegacy rfl rfl (fun row hrow hnot => ?_) fun h =>
      clears_tail fun _ => clears_head fun _ => h _ _
    dsimp only
    unfold LegacyUrlRepository.blockByIds
    split
    · exact hrow
    · refine mem_of_not_matches rfl hrow (Bool.eq_false_iff.2 fun hmatch => hnot ?_)
      rw [LegacyUrlRepository.matches_blockIdsFilter] at hmatch
      simpa [MatchesLegacy] using hmatch
  · exact .of_frames rfl rfl rfl rfl
  · exact move_of_evict rfl
  · exact .of_frames rfl rfl rfl rfl
  · exact .of_eq rfl

theorem move_onAliases {pairs : List (String × String)} {reason : String} {now : Int} (s : Stores)
    (hunder : p.todo <:+ SafetyEnforcer.blockAliasesCalls cfg pairs reason now) :
    Move cfg (.onAliases pairs reason now) p s := by
  obtain ⟨v, todo⟩ := p
  simp only [SafetyEnforcer.blockAliasesCalls, List.suffix_cons_iff, List.suffix_nil] at hunder
  rcases hunder with rfl | rfl | rfl | rfl | rfl
  · exact .of_eq rfl
  · exact .flips rfl rfl fun h => clears_head fun _ => h _ _
  · exact move_of_evict rfl
  · exact .of_frames rfl rfl rfl rfl
  · exact .of_eq rfl

theorem move_of_suffix (s : Stores) (hunder : p.todo <:+ block.calls cfg) :
    Move cfg block p s := by
  cases block with
  | onHost => exact move_onHost s hunder
  | onMatching => exact move_onMatching s hunder
  | onAliases => exact move_onAliases s hunder

end Block

end Spoo
