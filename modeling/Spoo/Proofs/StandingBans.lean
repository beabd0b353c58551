import Spoo.Proofs.BlockedLinks
import Spoo.Services.Safety.Policy

/-!
# Links on a banned host

A host block flips the links that are ACTIVE, and the stored verdict keeps new destinations on
the host out. A link that was INACTIVE or EXPIRED keeps its destinations, and nothing asks about
them when its owner brings it back.
-/

namespace Spoo

open Mongo Mongo.Collection UrlRepository

/-- The host is among the destination hosts of the link, or of one of its URLs. -/
def Reaches (lib : UrlLib) (host : String) (row : UrlRow) : Prop :=
  host ∈ row.hosts ∨ ∃ url ∈ row.destinationUrls, destinationHost lib url = some host

namespace UrlOps

variable {env : UpdateEnv} {ops : UrlOps} {row : UrlRow}

/-- After an edit a link routes to URLs it had before and to new ones of the edit. -/
theorem mem_destinationUrls_toUpdate {url : String}
    (h : url ∈ (ops.toUpdate.apply row).destinationUrls) :
    url ∈ row.destinationUrls ∨ url ∈ ops.newUrls := by
  simp only [UrlRow.destinationUrls, newUrls, mem_linkDestinationUrls] at h ⊢
  obtain ⟨hne, hlong | hgeo | hab | hpre | hexpired⟩ := h
  · cases hops : ops.longUrl with
    | none =>
      simp only [toUpdate, hops, Option.getD_none] at hlong
      exact .inl ⟨hne, .inl hlong⟩
    | some longUrl =>
      simp only [toUpdate, hops, Option.getD_some] at hlong
      exact .inr ⟨hne, .inl hlong⟩
  · cases hops : ops.geoRules with
    | none =>
      simp only [toUpdate, hops, Option.getD_none] at hgeo
      exact .inl ⟨hne, .inr (.inl hgeo)⟩
    | some geoRules =>
      simp only [toUpdate, hops, Option.getD_some] at hgeo
      exact .inr ⟨hne, .inr (.inl hgeo)⟩
  · cases hops : ops.abVariants with
    | none =>
      simp only [toUpdate, hops, Option.getD_none] at hab
      exact .inl ⟨hne, .inr (.inr (.inl hab))⟩
    | some abVariants =>
      simp only [toUpdate, hops, Option.getD_some] at hab
      exact .inr ⟨hne, .inr (.inr (.inl hab))⟩
  · cases hops : ops.preStartUrl with
    | none =>
      simp only [toUpdate, hops, Option.getD_none] at hpre
      exact .inl ⟨hne, .inr (.inr (.inr (.inl hpre)))⟩
    | some preStartUrl =>
      simp only [toUpdate, hops, Option.getD_some] at hpre
      exact .inr ⟨hne, .inr (.inr (.inr (.inl hpre)))⟩
  · cases hops : ops.expiredRedirectUrl with
    | none =>
      simp only [toUpdate, hops, Option.getD_none] at hexpired
      exact .inl ⟨hne, .inr (.inr (.inr (.inr hexpired)))⟩
    | some expiredRedirectUrl =>
      simp only [toUpdate, hops, Option.getD_some] at hexpired
      exact .inr ⟨hne, .inr (.inr (.inr (.inr hexpired)))⟩

/-- An edit of a destination leaves the link stamped. -/
theorem isStamped_toUpdate (hops : ops.Edits env (.fromMongo row))
    (hchanges : ops.changesDestination = true) :
    (ops.toUpdate.apply row).IsStamped env.lib := by
  have hdest : ops.dest = some (ops.stamp env.lib (.fromMongo row)) := by
    rw [hops.dest, if_pos hchanges]
  have happly : (ops.toUpdate.apply row).dest = ops.stamp env.lib (.fromMongo row) := by
    simp only [toUpdate, hdest, Option.getD_some]
  rw [UrlRow.IsStamped, happly]
  rfl

/-- Any other edit leaves the stamp and the destinations alone. -/
theorem dest_toUpdate (hops : ops.Edits env (.fromMongo row))
    (hsame : ops.changesDestination = false) : (ops.toUpdate.apply row).dest = row.dest := by
  have hdest : ops.dest = none := by
    rw [hops.dest, if_neg (by simp [hsame])]
  simp only [toUpdate, hdest, Option.getD_none]

theorem destinations_toUpdate (row : UrlRow) (hsame : ops.changesDestination = false) :
    (ops.toUpdate.apply row).longUrl = row.longUrl ∧
      (ops.toUpdate.apply row).geoRules = row.geoRules ∧
      (ops.toUpdate.apply row).abVariants = row.abVariants ∧
      (ops.toUpdate.apply row).preStartUrl = row.preStartUrl ∧
      (ops.toUpdate.apply row).expiredRedirectUrl = row.expiredRedirectUrl := by
  simp only [changesDestination, Bool.or_eq_false_iff, Option.isSome_eq_false_iff,
    Option.isNone_iff_eq_none] at hsame
  obtain ⟨⟨⟨⟨hlong, hgeo⟩, hvariants⟩, hpre⟩, hexpired⟩ := hsame
  simp only [toUpdate, hlong, hgeo, hvariants, hpre, hexpired, Option.getD_none, and_self]

theorem hosts_toUpdate (hops : ops.Edits env (.fromMongo row))
    (hsame : ops.changesDestination = false) :
    (ops.toUpdate.apply row).hosts = row.hosts := by
  rw [UrlRow.hosts, dest_toUpdate hops hsame, UrlRow.hosts]

end UrlOps

/-! ## The ban -/

/-- A toxic verdict over the whole host is stored, and the gate asks the verdict store. -/
structure HostBan (re : RegexLib) (policy : UrlPolicyService) (verdicts : VerdictStore)
    (host : String) : Prop where
  provider : toxicVerdictProvider re ∈ policy.providers
  verdict : ∃ verdict, VerdictRepository.findByHost verdicts host = some verdict ∧
    verdict.tier = .toxic ∧ verdict.scope.getD .host = .host

/-- The edits run behind the gate, over the stored verdicts. -/
structure Behind (policy : UrlPolicyService) (verdicts : VerdictStore) (env : UpdateEnv) :
    Prop where
  lib : env.lib = policy.lib
  checkPolicy : env.checkPolicy = policy.check verdicts

section

variable {re : RegexLib} {policy : UrlPolicyService} {verdicts : VerdictStore} {host : String}
  {env : UpdateEnv}

/-- No destination on a banned host passes the gate. -/
theorem HostBan.check_ne_none (hban : HostBan re policy verdicts host) {url : String}
    (hurl : destinationHost policy.lib url = some host) : policy.check verdicts url ≠ none := by
  obtain ⟨verdict, hfound, htoxic, hscope⟩ := hban.verdict
  have hcovers : verdictCovers re verdict url = true := by
    unfold verdictCovers
    rw [hscope]
  exact UrlPolicyService.check_of_toxic_verdict hban.provider hfound htoxic hcovers hurl

/-- An edit cannot bring a link onto a banned host. -/
theorem reaches_of_edited (hban : HostBan re policy verdicts host)
    (henv : Behind policy verdicts env) (hne : host ≠ "") {row : UrlRow} {ops : UrlOps}
    (hops : ops.Edits env (.fromMongo row))
    (h : Reaches policy.lib host (ops.toUpdate.apply row)) : Reaches policy.lib host row := by
  have hurls (h : ∃ url ∈ (ops.toUpdate.apply row).destinationUrls,
      destinationHost policy.lib url = some host) : Reaches policy.lib host row := by
    obtain ⟨url, hurl, hhost⟩ := h
    rcases UrlOps.mem_destinationUrls_toUpdate hurl with hold | hnew
    · exact .inr ⟨url, hold, hhost⟩
    · have hpass := hops.newUrls url hnew
      rw [henv.checkPolicy] at hpass
      exact absurd hpass (hban.check_ne_none hhost)
  rcases h with hhosts | h
  · cases hchanges : ops.changesDestination with
    | true =>
      have hstamped := UrlOps.isStamped_toUpdate hops hchanges
      rw [henv.lib] at hstamped
      exact hurls ((hstamped.mem_hosts hne).1 hhosts)
    | false =>
      rw [UrlOps.hosts_toUpdate hops hchanges] at hhosts
      exact .inl hhosts
  · exact hurls h

/-- A link that reaches a banned host reached it before the owner's steps, and was not
BLOCKED then if it is not now. -/
theorem reaches_of_ownerSteps (hban : HostBan re policy verdicts host)
    (henv : Behind policy verdicts env) (hne : host ≠ "") {o : Option UrlRow} {o' : Option UrlRow}
    (h : OwnerSteps env o o') :
    ∀ row', o' = some row' → row'.status ≠ .blocked → Reaches policy.lib host row' →
      ∃ row, o = some row ∧ row.status ≠ .blocked ∧ Reaches policy.lib host row := by
  induction h with
  | refl => exact fun row' hrow' hlive hreach => ⟨row', hrow', hlive, hreach⟩
  | tail _ hstep ih =>
    intro row' hrow' hlive hreach
    cases hstep with
    | deleted => cases hrow'
    | @edited row ops hlive₀ hops =>
      cases hrow'
      exact ih row rfl hlive₀ (reaches_of_edited hban henv hne hops hreach)
    | @retagged row =>
      cases hrow'
      exact ih row rfl hlive hreach
    | @claimed row =>
      cases hrow'
      exact ih row rfl hlive hreach

end

/-- The host block leaves the destinations of a link alone. -/
theorem reaches_afterBlock {lib : UrlLib} {host other reason : String} {now : Int}
    {row : UrlRow} : Reaches lib host (afterBlock other reason now row) ↔
      Reaches lib host row := by
  have hurls : (afterBlock other reason now row).destinationUrls = row.destinationUrls := by
    by_cases hact : row.status = .active ∧ other ∈ row.hosts
    · rw [afterBlock_of_active hact.1 hact.2]
      rfl
    · by_cases hcol : Collects row
      · rw [afterBlock_of_collects hcol]
        rfl
      · rw [afterBlock_of_untouched hact hcol]
  rw [Reaches, Reaches, hosts_afterBlock, hurls]

/-- After a host block, with the ban standing, an ACTIVE link on the host is one that the block
did not find ACTIVE: it reached the host then, and was INACTIVE or EXPIRED, or its stamp did not
show the host. -/
theorem active_on_banned_host (cfg : EnforcerConfig) (edge : EdgeConfig) (re : RegexLib)
    (policy : UrlPolicyService) (verdicts : VerdictStore) (host reason : String) (now : Int)
    (s : Stores) (ops : List (UpdateEnv × OwnerOp)) (hne : host ≠ "")
    (hban : HostBan re policy verdicts host)
    (hgate : ∀ op ∈ ops, Behind policy verdicts op.1) :
    ∀ t ∈ List.scanl (fun s op => op.2.run edge op.1 s)
        (SafetyEnforcer.blockHost cfg host reason now s).1 ops,
      ∀ row ∈ t.urls.docs, row.status = .active → host ∈ row.hosts →
        ∃ row₀ ∈ s.urls.docs, row₀.id = row.id ∧ Reaches policy.lib host row₀ ∧
          row₀.status ≠ .blocked ∧ (row₀.status = .active → host ∉ row₀.hosts) := by
  let P (t : Stores) : Prop := ∀ i row, t.urls.lookup i = some row → row.status ≠ .blocked →
    Reaches policy.lib host row →
    ∃ row₀, s.urls.lookup i = some row₀ ∧ Reaches policy.lib host row₀ ∧
      row₀.status ≠ .blocked ∧ (row₀.status = .active → host ∉ row₀.hosts)
  have hstart : P (SafetyEnforcer.blockHost cfg host reason now s).1 := by
    intro i row hrow hlive hreach
    rw [SafetyEnforcer.urls_blockHost, lookup_blockActiveByDestHost,
      Option.map_eq_some_iff] at hrow
    obtain ⟨row₀, hrow₀, rfl⟩ := hrow
    refine ⟨row₀, hrow₀, reaches_afterBlock.1 hreach, fun hblocked => hlive ?_,
      fun hact hhost => hlive ?_⟩
    · by_cases hcol : Collects row₀
      · rw [afterBlock_of_collects hcol]
        exact hblocked
      · rw [afterBlock_of_untouched (fun hact => by simp [hblocked] at hact) hcol]
        exact hblocked
    · rw [afterBlock_of_active hact hhost]
      rfl
  have hstep : ∀ t (op : UpdateEnv × OwnerOp), P t → Behind policy verdicts op.1 →
      P (op.2.run edge op.1 t) := by
    intro t op ht henv i row hrow hlive hreach
    obtain ⟨row', hrow', hlive', hreach'⟩ :=
      reaches_of_ownerSteps hban henv hne (op.2.ownerSteps_run edge op.1 t i) row hrow hlive
        hreach
    exact ht i row' hrow' hlive' hreach'
  intro t ht row hrow hact hhost
  have hrun := Run.forall_mem_scanl hstep hstart (Run.guarded_of_forall hgate) t ht
  obtain ⟨row₀, hrow₀, hreach, hlive, hwas⟩ :=
    hrun row.id row (lookup_eq_some_iff.2 ⟨hrow, rfl⟩) (by simp [hact]) (.inl hhost)
  obtain ⟨hmem, hid⟩ := lookup_eq_some_iff.1 hrow₀
  exact ⟨row₀, hmem, hid, hreach, hlive, hwas⟩

/-- No pattern compiles. -/
def noRegex : RegexLib where
  compiles _ := false
  search _ _ := none

/-- A gate that asks the verdict store only. -/
def verdictPolicy : UrlPolicyService where
  lib := asciiUrlLib
  validateUrl _ := true
  providers := [toxicVerdictProvider noRegex]
  publicMessages := PyDict.empty

/-- The verdict a ban of `a.example` stores. -/
def bannedVerdicts : VerdictStore where
  entries host :=
    if host = "a.example" then
      some { host, tier := .toxic, decidedBy := "operator", scope := some .host }
    else none

/-- The methods of the service behind that gate. -/
def gatedEnv : UpdateEnv :=
  { openEnv with checkPolicy := verdictPolicy.check bannedVerdicts }

theorem hostBan_bannedVerdicts : HostBan noRegex verdictPolicy bannedVerdicts "a.example" where
  provider := List.mem_singleton.2 rfl
  verdict := ⟨_, rfl, rfl, rfl⟩

theorem behind_gatedEnv : Behind verdictPolicy bannedVerdicts gatedEnv := ⟨rfl, rfl⟩

/-- A link on `a.example` that its owner has switched off. -/
def dormantLink : UrlRow := { linkOn 1 "aaa" "a.example" with ownerId := 7, status := .inactive }

/-- The stores with the one link. -/
def dormantStores : Stores where
  urls := { docs := [dormantLink], nodup_id := by decide, nodup_key := by decide }
  legacy := .empty
  emoji := .empty

/-- The stores after the ban. -/
def dormantBanned : Stores :=
  (SafetyEnforcer.blockHost SafetyEnforcer.plainConfig "a.example" "phishing" 0 dormantStores).1

/-- The owner switches the link on. -/
def switchOn : UpdateEnv × OwnerOp := (gatedEnv, .bulkSetStatus [1] .active 7 1)

theorem active_on_banned_host_dormantStores :
    HostBan noRegex verdictPolicy bannedVerdicts "a.example" ∧
    ∀ t ∈ List.scanl (fun s op => op.2.run plainEdge op.1 s) dormantBanned [switchOn],
      ∀ row ∈ t.urls.docs, row.status = .active → "a.example" ∈ row.hosts →
        ∃ row₀ ∈ dormantStores.urls.docs, row₀.id = row.id ∧
          Reaches verdictPolicy.lib "a.example" row₀ ∧ row₀.status ≠ .blocked ∧
            (row₀.status = .active → "a.example" ∉ row₀.hosts) :=
  ⟨hostBan_bannedVerdicts,
    active_on_banned_host SafetyEnforcer.plainConfig plainEdge noRegex verdictPolicy
      bannedVerdicts "a.example" "phishing" 0 dormantStores [switchOn] (by decide)
      hostBan_bannedVerdicts (by simp [switchOn, behind_gatedEnv])⟩

/-- A link that was INACTIVE when its host was banned comes back by `bulk_set_status`. -/
theorem dormant_link_revives_on_banned_host :
    HostBan noRegex verdictPolicy bannedVerdicts "a.example" ∧
      Behind verdictPolicy bannedVerdicts gatedEnv ∧
      ∃ row ∈ (switchOn.2.run plainEdge switchOn.1 dormantBanned).urls.docs,
        row.status = .active ∧ "a.example" ∈ row.hosts :=
  ⟨hostBan_bannedVerdicts, behind_gatedEnv, by decide⟩

end Spoo
