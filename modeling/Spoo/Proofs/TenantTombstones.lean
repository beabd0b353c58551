import Mathlib.Data.Fintype.Basic
import Spoo.Services.TenantResolver.CachedMongo

/-!
# Stale tenants

A tombstone keeps a resolve that read before a change from caching what it read, if the resolve looks for
the tombstone after it was left. A resolve that has looked already is not kept from anything. The cache
is right after every invalidation that finds no such resolve with an outdated tenant.
-/

namespace Spoo

open Agents Mongo Mongo.Collection CustomDomainRepository CachedMongo

variable {ι : Type}

namespace TenantPhase

/-- The call has ended, or has not begun. -/
def isIdle : TenantPhase → Bool
  | .idle _ => true
  | _ => false

/-- The host a resolve is for. -/
def host? : TenantPhase → Option String
  | .getting host => some host
  | .reading host => some host
  | .checking host _ => some host
  | .caching host _ => some host
  | _ => none

/-- The document a change is about to write. -/
def doc? : TenantPhase → Option CustomDomainDoc
  | .changing doc _ => some doc
  | .evicting doc _ => some doc
  | _ => none

/-- The call has changed a domain of the host, and has not invalidated the host yet. -/
def awaits (cfg : ResolverConfig) (host : String) : TenantPhase → Bool
  | .evicting doc _ => normaliseHost cfg doc.fqdn = host
  | .invalidating fqdn => normaliseHost cfg fqdn = host
  | _ => false

/-- The next move of the call invalidates the host. -/
def invalidates (cfg : ResolverConfig) (host : String) : TenantPhase → Bool
  | .invalidating fqdn => normaliseHost cfg fqdn = host
  | _ => false

/-- What the next move of the call caches for the host. -/
def caches? (host : String) : TenantPhase → Option (Option CachedMongo.TenantInfo)
  | .caching other tenant => if other = host then some tenant else none
  | _ => none

end TenantPhase

/-- The entry of the host is not there, or is the tenant that is stored. -/
def EntryCurrent (cfg : ResolverConfig) (host : String) (s : TenantWorld) : Prop :=
  ∀ tenant ∈ cacheGet s host, tenant = readTenant cfg s.domains host

instance (cfg : ResolverConfig) (host : String) (s : TenantWorld) : Decidable (EntryCurrent cfg host s) :=
  inferInstanceAs (Decidable (∀ tenant ∈ cacheGet s host, _ = _))

/-- Where a move is the last invalidation of the host that is waited for, each resolve that has looked for
a tombstone is about to cache the tenant that is stored. -/
def CachedBeforeInvalidation (cfg : ResolverConfig) (host : String) (pool : Pool ι TenantPhase TenantWorld)
    (event : ι × TenantAnswer) : Prop :=
  (pool.agents event.1).invalidates cfg host = true →
    (∀ i, i ≠ event.1 → (pool.agents i).awaits cfg host = false) →
    ∀ i, ∀ tenant ∈ (pool.agents i).caches? host, tenant = readTenant cfg pool.shared.domains host

instance [DecidableEq ι] [Fintype ι] (cfg : ResolverConfig) (host : String)
    (pool : Pool ι TenantPhase TenantWorld) (event : ι × TenantAnswer) :
    Decidable (CachedBeforeInvalidation cfg host pool event) := by
  unfold CachedBeforeInvalidation
  infer_instance

/-- The time that the moves of a run take. -/
def runTime (events : List (ι × TenantAnswer)) : Nat :=
  events.foldr (fun event time => event.2.delay + time) 0

/-! ## Writes to the collection -/

/-- A write to one document, which keeps its name. -/
def EditsOne (domainId : ObjectId) (domains domains' : DomainStore) : Prop :=
  ∃ f : CustomDomainDoc → CustomDomainDoc, domains'.docs = domains.docs.map f ∧
    ∀ doc, (f doc).id = doc.id ∧ (f doc).fqdn = doc.fqdn ∧ (doc.id ≠ domainId → f doc = doc)

theorem editsOne_applyWhere {domainId : ObjectId} {domains domains' : DomainStore}
    {q : CustomDomainDoc → Bool} {u : Update CustomDomainDoc}
    (hdocs : domains'.docs = domains.docs.map (applyWhere q u)) (hname : ∀ doc, (u.apply doc).fqdn = doc.fqdn)
    (hq : ∀ doc, q doc = true → doc.id = domainId) : EditsOne domainId domains domains' := by
  refine ⟨applyWhere q u, hdocs, fun doc => ⟨id_applyWhere q u doc,
    field_applyWhere CustomDomainDoc.fqdn q u hname doc, fun hne => applyWhere_of_not_matches u ?_⟩⟩
  cases hpasses : q doc with
  | true => exact absurd (hq doc hpasses) hne
  | false => rfl

theorem editsOne_updateStatus {domainId : ObjectId} {newStatus : DomainStatus} {error : Option String}
    {bump : Bool} {now : Int} {domains domains' : DomainStore}
    (h : updateStatus domains domainId newStatus error bump now = some domains') :
    EditsOne domainId domains domains' :=
  editsOne_applyWhere (docs_updateStatus h) (fun _ => rfl) fun _ hid => of_decide_eq_true hid

theorem editsOne_updateOne (domains : DomainStore) (domainId : ObjectId) {u : KeyedUpdate CustomDomainDoc}
    (hname : ∀ doc, (u.apply doc).fqdn = doc.fqdn) :
    EditsOne domainId domains (domains.updateOne domainId (fun _ => true) u) :=
  editsOne_applyWhere rfl hname fun _ hid => of_decide_eq_true (Bool.and_eq_true_iff.1 hid).1

/-- A map that leaves what passes as it is, and lets nothing else pass. -/
theorem find?_map_of_fix {α : Type} {p : α → Bool} {f : α → α} {xs : List α}
    (h : ∀ x ∈ xs, p (f x) = p x ∧ (p x = true → f x = x)) : (xs.map f).find? p = xs.find? p := by
  induction xs with
  | nil => rfl
  | cons x xs ih =>
    obtain ⟨hsame, hfix⟩ := h x List.mem_cons_self
    have htail := ih fun y hy => h y (List.mem_cons_of_mem _ hy)
    rw [List.map_cons, List.find?_cons, List.find?_cons, hsame, htail]
    cases hx : p x with
    | true => rw [hfix hx]
    | false => rfl

section

variable {domainId : ObjectId} {domains domains' : DomainStore}

theorem EditsOne.fqdn_lookup (h : EditsOne domainId domains domains') {i : ObjectId}
    {now : CustomDomainDoc} (hnow : domains'.lookup i = some now) :
    ∃ doc, domains.lookup i = some doc ∧ now.fqdn = doc.fqdn := by
  obtain ⟨f, hdocs, hf⟩ := h
  rw [lookup_map_of_docs hdocs fun doc => (hf doc).1, Option.map_eq_some_iff] at hnow
  obtain ⟨doc, hdoc, rfl⟩ := hnow
  exact ⟨doc, hdoc, (hf doc).2.1⟩

/-- A write to a document of one name leaves the tenants of the other names. -/
theorem EditsOne.findActiveByFqdn_eq (h : EditsOne domainId domains domains') {name : String}
    (hother : ∀ doc ∈ domains.lookup domainId, doc.fqdn ≠ name) :
    findActiveByFqdn domains' name = findActiveByFqdn domains name := by
  obtain ⟨f, hdocs, hf⟩ := h
  rw [findActiveByFqdn, findOne, hdocs]
  refine find?_map_of_fix fun doc hdoc => ?_
  by_cases hname : doc.fqdn = name
  · have hfix : f doc = doc := (hf doc).2.2 fun hid =>
      hother doc (lookup_eq_some_iff.2 ⟨hdoc, hid⟩) hname
    rw [hfix]
    exact ⟨rfl, fun _ => rfl⟩
  · have hname' : (f doc).fqdn ≠ name := by rwa [(hf doc).2.1]
    simp [hname, hname']

end

/-! ## What a move does -/

/-- A host that has entries: one that `resolve` goes on with. -/
def cacheable (cfg : ResolverConfig) (host : String) : Bool :=
  host ≠ "" && !isSystemDefaultHost cfg host

/-- A resolve goes on with a host that has entries. -/
def TenantPhase.AtHost (cfg : ResolverConfig) (phase : TenantPhase) : Prop :=
  ∀ host, phase.host? = some host → cacheable cfg host = true

/-- The document that a change is about to write has the name that it was read with. -/
def TenantPhase.NamesStored (domains : DomainStore) (phase : TenantPhase) : Prop :=
  ∀ doc, phase.doc? = some doc → ∀ stored ∈ domains.lookup doc.id, stored.fqdn = doc.fqdn

/-- What a call can do. -/
inductive TenantMoved (cfg : ResolverConfig) (s : TenantWorld) : TenantPhase → TenantPhase → TenantWorld → Prop
  | rests (phase phase' : TenantPhase) (hawaits : ∀ host, phase.awaits cfg host = false)
      (hawaits' : ∀ host, phase'.awaits cfg host = false)
      (hhost : ∀ host, phase'.host? = some host → phase.host? = some host ∨ cacheable cfg host = true)
      (hdoc : ∀ doc, phase'.doc? = some doc → s.domains.lookup doc.id = some doc)
      (hchecking : ∀ host tenant, phase' ≠ .checking host tenant)
      (hcaching : ∀ host tenant, phase' ≠ .caching host tenant) :
      TenantMoved cfg s phase phase' s
  | reads (host : String) :
      TenantMoved cfg s (.reading host) (.checking host (readTenant cfg s.domains host)) s
  | passes (host : String) (tenant : Option CachedMongo.TenantInfo) (hnot : isTombstoned s host = false) :
      TenantMoved cfg s (.checking host tenant) (.caching host tenant) s
  | caches (host : String) (tenant : Option CachedMongo.TenantInfo) (last : Option TenantOutcome) :
      TenantMoved cfg s (.caching host tenant) (.idle last) (cacheSet cfg s host tenant)
  | edits (doc : CustomDomainDoc) (phase phase' : TenantPhase) (domains : DomainStore)
      (hphase : phase.doc? = some doc)
      (hphase' : (∃ newStatus, phase' = .evicting doc newStatus) ∨ phase' = .invalidating doc.fqdn)
      (hedits : EditsOne doc.id s.domains domains) :
      TenantMoved cfg s phase phase' { s with domains }
  | invalidates (fqdn : String) (last : Option TenantOutcome) :
      TenantMoved cfg s (.invalidating fqdn) (.idle last) (invalidate cfg s fqdn)

section

variable {cfg : ResolverConfig} {s s' : TenantWorld} {phase phase' : TenantPhase} {host : String}

/-- A call that ends without having done anything. -/
theorem TenantMoved.ends (hawaits : ∀ host, phase.awaits cfg host = false) (last : Option TenantOutcome) :
    TenantMoved cfg s phase (.idle last) s :=
  .rests phase (.idle last) hawaits (fun _ => rfl) (by simp [TenantPhase.host?]) (by simp [TenantPhase.doc?])
    (by simp) (by simp)

theorem tenantMoved_resolve (last : Option TenantOutcome) (host : String) :
    TenantMoved cfg s (.idle last) (resolve cfg host) s := by
  have hidle : ∀ host, (TenantPhase.idle last).awaits cfg host = false := fun _ => rfl
  simp only [resolve]
  split_ifs with hempty hdefault
  · exact .ends hidle _
  · exact .ends hidle _
  · refine .rests _ _ (fun _ => rfl) (fun _ => rfl) (fun other hother => .inr ?_)
      (by simp [TenantPhase.doc?]) (by simp) (by simp)
    cases hother
    simp [cacheable, hempty, hdefault]

theorem tenantMoved_startChange {domainId : ObjectId} {change change' : DomainChange} {doc : CustomDomainDoc}
    (hdoc : s.domains.lookup domainId = some doc) :
    TenantMoved cfg s (.loading domainId change) (startChange change' doc) s := by
  have hid : doc.id = domainId := (lookup_eq_some_iff.1 hdoc).2
  have hquiet : ∀ host, (TenantPhase.loading domainId change).awaits cfg host = false := fun _ => rfl
  have hgoes (change' : DomainChange) :
      TenantMoved cfg s (.loading domainId change) (.changing doc change') s := by
    refine .rests _ _ hquiet (fun _ => rfl) (by simp [TenantPhase.host?]) (fun other hother => ?_) (by simp)
      (by simp)
    cases hother
    rw [hid]
    exact hdoc
  cases change' with
  | status newStatus error bump =>
    simp only [startChange]
    split_ifs
    · exact hgoes _
    · exact .ends hquiet _
  | routing ops =>
    simp only [startChange]
    split_ifs
    · exact .ends hquiet _
    · exact .ends hquiet _
    · exact hgoes _

theorem tenantMoved_changing {answer : TenantAnswer} (doc : CustomDomainDoc) (change : DomainChange) :
    TenantMoved cfg s (.changing doc change) (CachedMongo.move cfg answer (.changing doc change) s).1
      (CachedMongo.move cfg answer (.changing doc change) s).2 := by
  cases change with
  | status newStatus error bump =>
    simp only [CachedMongo.move]
    split
    · exact .ends (fun _ => rfl) _
    · rename_i domains hwrite
      refine .edits doc _ _ domains rfl ?_ (editsOne_updateStatus hwrite)
      split_ifs
      · exact .inl ⟨newStatus, rfl⟩
      · exact .inr rfl
  | routing ops =>
    simp only [CachedMongo.move, updateRouting]
    by_cases hops : ops = {}
    · simp only [if_pos hops, Bool.false_eq_true, if_false]
      exact .ends (fun _ => rfl) _
    · simp only [if_neg hops]
      cases hstored : s.domains.lookup doc.id with
      | none =>
        rw [updateOne_of_not_matches _ _ (by simp [hstored])]
        simp only [Option.isSome_none, Bool.false_eq_true, if_false]
        exact .ends (fun _ => rfl) _
      | some stored =>
        simp only [Option.isSome_some, if_true]
        exact .edits doc _ _ _ rfl (.inr rfl) (editsOne_updateOne _ _ fun _ => rfl)

theorem tenantMoved_move {answer : TenantAnswer} :
    TenantMoved cfg s phase (CachedMongo.move cfg answer phase s).1 (CachedMongo.move cfg answer phase s).2 := by
  cases phase with
  | idle last =>
    obtain ⟨delay, choice, edgeEvicted⟩ := answer
    cases choice with
    | go => exact .ends (fun _ => rfl) _
    | resolve host => exact tenantMoved_resolve last host
    | change domainId change =>
      exact .rests _ _ (fun _ => rfl) (fun _ => rfl) (by simp [CachedMongo.move, TenantPhase.host?])
        (by simp [CachedMongo.move, TenantPhase.doc?]) (by simp [CachedMongo.move]) (by simp [CachedMongo.move])
  | getting host =>
    simp only [CachedMongo.move]
    split
    · exact .ends (fun _ => rfl) _
    · exact .rests _ _ (fun _ => rfl) (fun _ => rfl) (fun _ hother => .inl hother)
        (by simp [TenantPhase.doc?]) (by simp) (by simp)
  | reading host => exact .reads host
  | checking host tenant =>
    simp only [CachedMongo.move]
    split_ifs with htomb
    · exact .ends (fun _ => rfl) _
    · exact .passes host tenant (by simpa using htomb)
  | caching host tenant => exact .caches host tenant _
  | loading domainId change =>
    simp only [CachedMongo.move]
    split
    · exact .ends (fun _ => rfl) _
    · rename_i doc hdoc
      exact tenantMoved_startChange hdoc
  | changing doc change => exact tenantMoved_changing doc change
  | evicting doc newStatus =>
    exact .edits doc _ _ _ rfl (.inr rfl) (editsOne_updateOne _ _ fun _ => rfl)
  | invalidating fqdn => exact .invalidates fqdn _

/-- A move of the system. -/
theorem tenantMoved_phase (cfg : ResolverConfig) (who : ι) (answer : TenantAnswer) (phase : TenantPhase)
    (s : TenantWorld) : TenantMoved cfg (s.wait answer.delay) phase
      (TenantPhase.move cfg who answer phase s).1 (TenantPhase.move cfg who answer phase s).2 :=
  tenantMoved_move

/-! ## One move -/

/-- What a resolve is about to cache for the host is the tenant that is stored, or there is a tombstone
that stays until the deadline. -/
def TenantPhase.Fresh (cfg : ResolverConfig) (host : String) (deadline : Int) (s : TenantWorld) :
    TenantPhase → Prop
  | .checking other tenant => other = host →
    tenant = readTenant cfg s.domains host ∨ ∃ expiresAt ∈ s.tombs host, deadline < expiresAt
  | .caching other tenant => other = host → tenant = readTenant cfg s.domains host
  | _ => True

/-- What the cache has for the host is the tenant that is stored. -/
def CacheFresh (cfg : ResolverConfig) (host : String) (s : TenantWorld) : Prop :=
  ∀ cached ∈ s.tenants host, cached.tenant = readTenant cfg s.domains host

theorem TenantPhase.Fresh.congr {deadline : Int} (h : phase.Fresh cfg host deadline s)
    (hread : readTenant cfg s'.domains host = readTenant cfg s.domains host)
    (htombs : s'.tombs host = s.tombs host) : phase.Fresh cfg host deadline s' := by
  cases phase with
  | checking other tenant =>
    intro hother
    rw [hread, htombs]
    exact h hother
  | caching other tenant =>
    intro hother
    rw [hread]
    exact h hother
  | _ => exact trivial

theorem domains_invalidate (fqdn : String) : (invalidate cfg s fqdn).domains = s.domains := by
  rw [invalidate]
  split_ifs <;> rfl

theorem TenantMoved.fqdn_lookup (hm : TenantMoved cfg s phase phase' s') {domainId : ObjectId}
    {now : CustomDomainDoc} (hnow : s'.domains.lookup domainId = some now) :
    ∃ doc, s.domains.lookup domainId = some doc ∧ now.fqdn = doc.fqdn := by
  cases hm with
  | edits doc _ _ domains _ _ hedits => exact hedits.fqdn_lookup hnow
  | invalidates fqdn =>
    rw [domains_invalidate] at hnow
    exact ⟨now, hnow, rfl⟩
  | _ => exact ⟨now, hnow, rfl⟩

theorem TenantMoved.clock_eq (hm : TenantMoved cfg s phase phase' s') : s'.clock = s.clock := by
  cases hm with
  | invalidates fqdn =>
    rw [invalidate]
    split_ifs <;> rfl
  | _ => rfl

theorem TenantMoved.atHost (hm : TenantMoved cfg s phase phase' s') (h : phase.AtHost cfg) :
    phase'.AtHost cfg := by
  intro other hother
  cases hm with
  | rests _ _ _ _ hhost =>
    rcases hhost other hother with hbefore | hcacheable
    · exact h other hbefore
    · exact hcacheable
  | reads => exact h other hother
  | passes => exact h other hother
  | caches => cases hother
  | edits doc _ _ domains _ hphase' =>
    rcases hphase' with ⟨newStatus, rfl⟩ | rfl <;> cases hother
  | invalidates => cases hother

/-- A move leaves the names that the others have read. -/
theorem TenantMoved.others_named (hm : TenantMoved cfg s phase phase' s') {other : TenantPhase}
    (h : other.NamesStored s.domains) : other.NamesStored s'.domains := by
  intro doc hdoc stored hstored
  obtain ⟨before, hbefore, hname⟩ := hm.fqdn_lookup hstored
  rw [hname]
  exact h doc hdoc before hbefore

theorem TenantMoved.namesStored (hm : TenantMoved cfg s phase phase' s') (h : phase.NamesStored s.domains) :
    phase'.NamesStored s'.domains := by
  intro doc hdoc stored hstored
  obtain ⟨before, hbefore, hname⟩ := hm.fqdn_lookup hstored
  rw [hname]
  cases hm with
  | rests _ _ _ _ _ hread =>
    cases (hread doc hdoc).symm.trans hbefore
    rfl
  | reads => cases hdoc
  | passes => cases hdoc
  | caches => cases hdoc
  | edits _ _ _ domains hphase hphase' =>
    rcases hphase' with ⟨newStatus, rfl⟩ | rfl
    · cases hdoc
      exact h doc hphase before hbefore
    · cases hdoc
  | invalidates => cases hdoc

/-- What `invalidate` does to a host that has entries. -/
theorem invalidate_of_cacheable {fqdn : String} (hname : normaliseHost cfg fqdn = host)
    (hcacheable : cacheable cfg host = true) :
    (invalidate cfg s fqdn).tenants host = none ∧
      (invalidate cfg s fqdn).tombs host = some (s.clock + cfg.tombstoneTtlSeconds * 1000) := by
  simp only [cacheable, isSystemDefaultHost, Bool.and_eq_true, decide_eq_true_eq, Bool.not_eq_true',
    Bool.or_eq_false_iff, decide_eq_false_iff_not] at hcacheable
  have hgoes : ¬(normaliseHost cfg fqdn = "" ∨ normaliseHost cfg fqdn = systemDefault cfg) := by
    rw [hname]
    rintro (hempty | hdefault)
    · exact hcacheable.1 hempty
    · exact hcacheable.2.1 hdefault
  rw [invalidate, if_neg hgoes, hname]
  exact ⟨Function.update_self .., Function.update_self ..⟩

theorem invalidate_of_ne {fqdn : String} (hname : normaliseHost cfg fqdn ≠ host) :
    (invalidate cfg s fqdn).tenants host = s.tenants host ∧
      (invalidate cfg s fqdn).tombs host = s.tombs host := by
  rw [invalidate]
  split_ifs
  · exact ⟨rfl, rfl⟩
  · exact ⟨Function.update_of_ne (Ne.symm hname) .., Function.update_of_ne (Ne.symm hname) ..⟩

theorem tenants_cacheSet_of_ne {other : String} (hother : other ≠ host) (tenant : Option CachedMongo.TenantInfo) :
    (cacheSet cfg s other tenant).tenants host = s.tenants host :=
  Function.update_of_ne (Ne.symm hother) ..

theorem TenantMoved.cacheable_tenants (hm : TenantMoved cfg s phase phase' s') (h : phase.AtHost cfg)
    (hcached : (s.tenants host).isSome = true → cacheable cfg host = true)
    (hsome : (s'.tenants host).isSome = true) : cacheable cfg host = true := by
  cases hm with
  | caches other tenant =>
    by_cases hother : other = host
    · subst hother
      exact h other rfl
    · rw [tenants_cacheSet_of_ne hother] at hsome
      exact hcached hsome
  | invalidates fqdn =>
    by_cases hname : normaliseHost cfg fqdn = host
    · cases hcacheable : cacheable cfg host with
      | true => rfl
      | false =>
        rw [invalidate] at hsome
        split_ifs at hsome
        · exact hcacheable.symm.trans (hcached hsome)
        · simp [hname] at hsome
    · rw [(invalidate_of_ne hname).1] at hsome
      exact hcached hsome
  | _ => exact hcached hsome

/-- A write to a domain of another host leaves the tenant of this one. -/
theorem readTenant_of_editsOne {doc : CustomDomainDoc} {domains : DomainStore}
    (hhost : normaliseHost cfg (canonical cfg.lib host) = host)
    (hnamed : ∀ stored ∈ s.domains.lookup doc.id, stored.fqdn = doc.fqdn)
    (hother : normaliseHost cfg doc.fqdn ≠ host) (hedits : EditsOne doc.id s.domains domains) :
    readTenant cfg domains host = readTenant cfg s.domains host := by
  rw [readTenant, readTenant, hedits.findActiveByFqdn_eq fun stored hstored hname => ?_]
  rw [hnamed stored hstored] at hname
  rw [hname] at hother
  exact hother hhost

/-- An invalidation of the host empties its cache and leaves a tombstone for those who are about to fill it
again; one of another host leaves both as they are. -/
theorem fresh_invalidate {agents : ι → TenantPhase} {deadline : Int} {fqdn : String}
    (hhosts : ∀ i, (agents i).AtHost cfg) (hcached : (s.tenants host).isSome = true → cacheable cfg host = true)
    (hlasts : deadline < s.clock + cfg.tombstoneTtlSeconds * 1000)
    (hguard : normaliseHost cfg fqdn = host →
      ∀ i, ∀ tenant ∈ (agents i).caches? host, tenant = readTenant cfg s.domains host)
    (hbefore : normaliseHost cfg fqdn ≠ host →
      CacheFresh cfg host s ∧ ∀ i, (agents i).Fresh cfg host deadline s) :
    CacheFresh cfg host (invalidate cfg s fqdn) ∧
      ∀ i, (agents i).Fresh cfg host deadline (invalidate cfg s fqdn) := by
  have hread : readTenant cfg (invalidate cfg s fqdn).domains host = readTenant cfg s.domains host := by
    rw [domains_invalidate]
  by_cases hname : normaliseHost cfg fqdn = host
  · refine ⟨?_, fun i => ?_⟩
    · intro cached hstored
      have hsome := TenantMoved.cacheable_tenants (.invalidates fqdn none) (fun _ hnone => by cases hnone)
        hcached (Option.isSome_of_mem hstored)
      rw [(invalidate_of_cacheable hname hsome).1] at hstored
      cases hstored
    · have hcaches := hguard hname i
      have hcacheable := hhosts i
      generalize agents i = agent at hcaches hcacheable
      cases agent with
      | checking other tenant =>
        rintro rfl
        exact .inr ⟨_, (invalidate_of_cacheable hname (hcacheable other rfl)).2, hlasts⟩
      | caching other tenant =>
        rintro rfl
        rw [hread]
        exact hcaches tenant (if_pos rfl)
      | _ => exact trivial
  · obtain ⟨hcache, hagents⟩ := hbefore hname
    obtain ⟨htenants, htombs⟩ := invalidate_of_ne (s := s) hname
    refine ⟨fun cached hstored => ?_, fun i => (hagents i).congr hread htombs⟩
    rw [hread]
    rw [htenants] at hstored
    exact hcache cached hstored

/-- Where no change of the host waits for its invalidation after a move, the cache and the agents are
fresh after it, if they were where none waited before. -/
theorem TenantMoved.fresh {agents : ι → TenantPhase} {deadline : Int}
    (hm : TenantMoved cfg s phase phase' s') (hhost : normaliseHost cfg (canonical cfg.lib host) = host)
    (hhosts : ∀ i, (agents i).AtHost cfg) (hnamed : phase.NamesStored s.domains)
    (hcached : (s.tenants host).isSome = true → cacheable cfg host = true)
    (hnow : s.clock ≤ deadline) (hlasts : deadline < s.clock + cfg.tombstoneTtlSeconds * 1000)
    (hguard : phase.invalidates cfg host = true →
      ∀ i, ∀ tenant ∈ (agents i).caches? host, tenant = readTenant cfg s.domains host)
    (hbefore : phase.awaits cfg host = false → CacheFresh cfg host s ∧
      phase.Fresh cfg host deadline s ∧ ∀ i, (agents i).Fresh cfg host deadline s)
    (hafter : phase'.awaits cfg host = false) :
    CacheFresh cfg host s' ∧ phase'.Fresh cfg host deadline s' ∧
      ∀ i, (agents i).Fresh cfg host deadline s' := by
  cases hm with
  | rests _ _ hawaits _ _ _ hchecking hcaching =>
    obtain ⟨hcache, -, hagents⟩ := hbefore (hawaits host)
    refine ⟨hcache, ?_, hagents⟩
    cases phase' with
    | checking other tenant => exact absurd rfl (hchecking other tenant)
    | caching other tenant => exact absurd rfl (hcaching other tenant)
    | _ => exact trivial
  | reads other =>
    obtain ⟨hcache, -, hagents⟩ := hbefore rfl
    refine ⟨hcache, ?_, hagents⟩
    rintro rfl
    exact .inl rfl
  | passes other tenant hnot =>
    obtain ⟨hcache, hphase, hagents⟩ := hbefore rfl
    refine ⟨hcache, ?_, hagents⟩
    rintro rfl
    rcases hphase rfl with hread | ⟨expiresAt, htomb, hstays⟩
    · exact hread
    · -- The tombstone is there, and the resolve has not found it.
      rw [isTombstoned, Option.mem_def.1 htomb] at hnot
      have hexpired : expiresAt ≤ s.clock := by simpa using hnot
      omega
  | caches other tenant =>
    obtain ⟨hcache, hphase, hagents⟩ := hbefore rfl
    refine ⟨?_, trivial, fun i => (hagents i).congr rfl rfl⟩
    intro cached hstored
    by_cases hother : other = host
    · subst hother
      simp only [cacheSet, Function.update_self, Option.mem_def, Option.some.injEq] at hstored
      rw [← hstored]
      exact hphase rfl
    · rw [tenants_cacheSet_of_ne hother] at hstored
      exact hcache cached hstored
  | edits doc _ _ domains hphase hphase' hedits =>
    have hother : normaliseHost cfg doc.fqdn ≠ host := by
      rcases hphase' with ⟨newStatus, rfl⟩ | rfl <;> exact of_decide_eq_false hafter
    have hquiet : phase.awaits cfg host = false := by
      cases phase with
      | evicting other newStatus =>
        cases hphase
        exact decide_eq_false hother
      | invalidating fqdn => cases hphase
      | _ => rfl
    have hread := readTenant_of_editsOne hhost (hnamed doc hphase) hother hedits
    obtain ⟨hcache, -, hagents⟩ := hbefore hquiet
    refine ⟨fun cached hstored => ?_, ?_, fun i => (hagents i).congr hread rfl⟩
    · rw [hread]
      exact hcache cached hstored
    · rcases hphase' with ⟨newStatus, rfl⟩ | rfl <;> exact trivial
  | invalidates fqdn =>
    have hother (hname : normaliseHost cfg fqdn ≠ host) :
        CacheFresh cfg host s ∧ ∀ i, (agents i).Fresh cfg host deadline s := by
      obtain ⟨hcache, -, hagents⟩ := hbefore (decide_eq_false hname)
      exact ⟨hcache, hagents⟩
    obtain ⟨hcache, hagents⟩ := fresh_invalidate hhosts hcached hlasts
      (fun hname => hguard (decide_eq_true hname)) hother
    exact ⟨hcache, trivial, hagents⟩

end

/-! ## Runs -/

/-- The hosts and the documents the calls are at, and, where no change of the host waits for its
invalidation, that the cache and the calls are fresh. -/
structure TenantsSound (cfg : ResolverConfig) (host : String) (deadline : Int)
    (pool : Pool ι TenantPhase TenantWorld) : Prop where
  hosts : ∀ i, (pool.agents i).AtHost cfg
  named : ∀ i, (pool.agents i).NamesStored pool.shared.domains
  cached : (pool.shared.tenants host).isSome = true → cacheable cfg host = true
  settled : (∀ i, (pool.agents i).awaits cfg host = false) → CacheFresh cfg host pool.shared ∧
    ∀ i, (pool.agents i).Fresh cfg host deadline pool.shared

/-- The time of a move is before the deadline, and a tombstone that it leaves stays until then. -/
def InWindow (cfg : ResolverConfig) (deadline : Int) (pool : Pool ι TenantPhase TenantWorld)
    (event : ι × TenantAnswer) : Prop :=
  pool.shared.clock + event.2.delay ≤ deadline ∧
    deadline < pool.shared.clock + event.2.delay + cfg.tombstoneTtlSeconds * 1000

section

variable [DecidableEq ι] {cfg : ResolverConfig} {host : String} {deadline : Int}
  {pool : Pool ι TenantPhase TenantWorld} {event : ι × TenantAnswer}

theorem TenantsSound.step (h : TenantsSound cfg host deadline pool)
    (hhost : normaliseHost cfg (canonical cfg.lib host) = host) (hwindow : InWindow cfg deadline pool event)
    (hguard : CachedBeforeInvalidation cfg host pool event) :
    TenantsSound cfg host deadline (pool.step (TenantPhase.move cfg) event) := by
  have hm := tenantMoved_phase cfg event.1 event.2 (pool.agents event.1) pool.shared
  constructor
  · exact Pool.forall_agents_step (Q := fun _ => TenantPhase.AtHost cfg) (hm.atHost (h.hosts event.1))
      fun i _ => h.hosts i
  · exact Pool.forall_agents_step (Q := fun _ => TenantPhase.NamesStored _)
      (hm.namesStored (h.named event.1)) fun i _ => hm.others_named (h.named i)
  · exact hm.cacheable_tenants (h.hosts event.1) h.cached
  · intro hsettled
    have hothers (i : ι) (hi : i ≠ event.1) : (pool.agents i).awaits cfg host = false := by
      have hi' := hsettled i
      rwa [Pool.agents_step_of_ne hi] at hi'
    have hafter := hsettled event.1
    rw [Pool.agents_step_same] at hafter
    have hbefore (hquiet : (pool.agents event.1).awaits cfg host = false) :
        CacheFresh cfg host (pool.shared.wait event.2.delay) ∧
          (pool.agents event.1).Fresh cfg host deadline (pool.shared.wait event.2.delay) ∧
          ∀ i, (pool.agents i).Fresh cfg host deadline (pool.shared.wait event.2.delay) := by
      have hall (i : ι) : (pool.agents i).awaits cfg host = false := by
        by_cases hi : i = event.1
        · rw [hi]
          exact hquiet
        · exact hothers i hi
      obtain ⟨hcache, hagents⟩ := h.settled hall
      exact ⟨hcache, (hagents event.1).congr rfl rfl, fun i => (hagents i).congr rfl rfl⟩
    obtain ⟨hcache, hown, hagents⟩ := hm.fresh hhost h.hosts (h.named event.1) h.cached hwindow.1
      hwindow.2 (fun hinvalidates => hguard hinvalidates hothers) hbefore hafter
    exact ⟨hcache, Pool.forall_agents_step (Q := fun _ => TenantPhase.Fresh cfg host deadline _) hown
      fun i _ => hagents i⟩

theorem clock_step : (pool.step (TenantPhase.move cfg) event).shared.clock =
    pool.shared.clock + event.2.delay := by
  have hm := tenantMoved_phase cfg event.1 event.2 (pool.agents event.1) pool.shared
  exact hm.clock_eq

/-- A run that is shorter than a tombstone lasts is in the window throughout. -/
theorem guarded_inWindow {events : List (ι × TenantAnswer)}
    (hends : pool.shared.clock + runTime events ≤ deadline)
    (hlasts : deadline < pool.shared.clock + cfg.tombstoneTtlSeconds * 1000) :
    Run.Guarded (Pool.step (TenantPhase.move cfg)) (InWindow cfg deadline) pool events := by
  induction events generalizing pool with
  | nil => exact trivial
  | cons event events ih =>
    have htime : runTime (event :: events) = event.2.delay + runTime events := rfl
    have hnow : InWindow cfg deadline pool event := ⟨by omega, by omega⟩
    refine ⟨hnow, ih ?_ ?_⟩
    · rw [clock_step]
      omega
    · rw [clock_step]
      omega

theorem exists_of_isIdle {phase : TenantPhase} (h : phase.isIdle = true) : ∃ last, phase = .idle last := by
  cases phase with
  | idle last => exact ⟨last, rfl⟩
  | _ => cases h

theorem entryCurrent_of_cacheFresh {s : TenantWorld} (h : CacheFresh cfg host s) :
    EntryCurrent cfg host s := by
  intro tenant htenant
  obtain ⟨cached, hcached, rfl⟩ := Option.map_eq_some_iff.1 htenant
  exact h cached (Option.filter_eq_some_iff.1 hcached).1

end

/-- In every run of resolves and of changes, each followed by its invalidation, that is shorter than a
tombstone lasts: once all have finished, the entry of the host is not there or is the tenant that is
stored, if each last invalidation finds no resolve that has looked for a tombstone and is about to cache
another tenant. -/
theorem entry_current_of_cached_before [DecidableEq ι] (cfg : ResolverConfig) (host : String)
    (hhost : normaliseHost cfg (canonical cfg.lib host) = host)
    (pool : Pool ι TenantPhase TenantWorld) (events : List (ι × TenantAnswer))
    (hidle : ∀ i, (pool.agents i).isIdle = true)
    (hstart : ∀ cached ∈ pool.shared.tenants host,
      cacheable cfg host = true ∧ cached.tenant = readTenant cfg pool.shared.domains host)
    (hwindow : runTime events < cfg.tombstoneTtlSeconds * 1000)
    (hguard : Run.Guarded (Pool.step (TenantPhase.move cfg)) (CachedBeforeInvalidation cfg host) pool
      events) :
    ∀ t ∈ List.scanl (Pool.step (TenantPhase.move cfg)) pool events,
      (∀ i, (t.agents i).isIdle = true) → EntryCurrent cfg host t.shared := by
  have hsound : TenantsSound cfg host
      (pool.shared.clock + runTime events) pool := by
    constructor
    · intro i other hother
      obtain ⟨last, hlast⟩ := exists_of_isIdle (hidle i)
      rw [hlast] at hother
      cases hother
    · intro i doc hdoc
      obtain ⟨last, hlast⟩ := exists_of_isIdle (hidle i)
      rw [hlast] at hdoc
      cases hdoc
    · intro hsome
      obtain ⟨cached, hcached⟩ := Option.isSome_iff_exists.1 hsome
      exact (hstart cached hcached).1
    · refine fun _ => ⟨fun cached hcached => (hstart cached hcached).2, fun i => ?_⟩
      obtain ⟨last, hlast⟩ := exists_of_isIdle (hidle i)
      rw [hlast]
      exact trivial
  have hinWindow : Run.Guarded (Pool.step (TenantPhase.move cfg)) (InWindow cfg
      (pool.shared.clock + runTime events)) pool events :=
    guarded_inWindow le_rfl (by omega)
  intro t ht hfinished
  have ht' := Run.forall_mem_scanl (fun pool event h hg => h.step hhost hg.1 hg.2) hsound
    (hinWindow.and hguard) t ht
  have hquiet (i : ι) : (t.agents i).awaits cfg host = false := by
    obtain ⟨last, hlast⟩ := exists_of_isIdle (hfinished i)
    rw [hlast]
    rfl
  exact entryCurrent_of_cacheFresh (ht'.settled hquiet).1

/-- The primitives on a `//host` without a port. -/
def netlocUrlLib : UrlLib := { asciiUrlLib with
  urlsplit := fun url =>
    if url.toList.take 2 = ['/', '/'] then
      some ("", some (String.ofList (((url.toList.drop 2).takeWhile (· ≠ '/')).map Char.toLower)))
    else some ("", none) }

/-- The resolver as it is wired. -/
def wiredResolver : ResolverConfig where
  lib := netlocUrlLib
  systemDefaultDomain := "spoo.me"

/-- Two calls that have not begun, an active domain, and nothing cached. -/
def oneActive : Pool Bool TenantPhase TenantWorld where
  agents _ := .idle none
  shared := {
    domains := .single {
      id := 0
      fqdn := "go.example"
      ownerId := 1
      status := .active
      verificationMethod := .cname
      createdAt := 0 }
    tenants := fun _ => none
    tombs := fun _ => none
    clock := 0 }

/-- A resolve looks for a tombstone between the change and the invalidation, and caches after both. -/
def readBetween : List (Bool × TenantAnswer) :=
  [(false, ⟨0, .change 0 (.status .revoked none false), true⟩), (false, ⟨10, .go, true⟩),
    (false, ⟨10, .go, true⟩), (true, ⟨0, .resolve "Go.Example", true⟩), (true, ⟨1, .go, true⟩),
    (true, ⟨1, .go, true⟩), (true, ⟨1, .go, true⟩), (false, ⟨100, .go, true⟩), (false, ⟨10, .go, true⟩),
    (true, ⟨1, .go, true⟩)]

theorem entry_current_readBetween :
    Run.Guarded (Pool.step (TenantPhase.move wiredResolver))
      (CachedBeforeInvalidation wiredResolver "go.example") oneActive readBetween ∧
    ∀ t ∈ List.scanl (Pool.step (TenantPhase.move wiredResolver)) oneActive readBetween,
      (∀ i, (t.agents i).isIdle = true) → EntryCurrent wiredResolver "go.example" t.shared :=
  have hguard : Run.Guarded (Pool.step (TenantPhase.move wiredResolver))
      (CachedBeforeInvalidation wiredResolver "go.example") oneActive readBetween := by decide +kernel
  ⟨hguard, entry_current_of_cached_before wiredResolver "go.example" (by decide +kernel) oneActive
    readBetween (fun _ => rfl) (fun _ hnone => by cases hnone) (by decide) hguard⟩

/-- A resolve reads the active domain and finds no tombstone, the domain is revoked and its host
invalidated, and the resolve caches what it has read. -/
theorem revoked_cached_readBefore :
    ¬ ∀ t ∈ List.scanl (Pool.step (TenantPhase.move wiredResolver)) oneActive
      [(true, ⟨0, .resolve "Go.Example", true⟩), (true, ⟨1, .go, true⟩), (true, ⟨1, .go, true⟩),
        (true, ⟨1, .go, true⟩), (false, ⟨0, .change 0 (.status .revoked none false), true⟩),
        (false, ⟨10, .go, true⟩), (false, ⟨10, .go, true⟩), (false, ⟨100, .go, true⟩),
        (false, ⟨10, .go, true⟩), (true, ⟨1, .go, true⟩)],
      (∀ i, (t.agents i).isIdle = true) → EntryCurrent wiredResolver "go.example" t.shared := by
  decide +kernel

end Spoo
