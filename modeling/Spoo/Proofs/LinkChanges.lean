import Spoo.Proofs.Shadowing

/-!
# Making and moving links

Each operation that makes a link or gives one another key leaves the codes of the other links alone,
with one exception: a v2 link that is left to draw its alias may draw the code of a v1 link.
-/

namespace Spoo

open Fallible Interleave Mongo Mongo.Collection UrlService BulkUrlService
open SafetyEnforcer (LinkRef)

/-! ## The operations -/

/-- An operation that makes a link or gives one another key. -/
inductive LinkChange (cfg : AliasConfig) where
  | create (env : CreateEnv) (request : CreateUrlRequest) (ownerId : Option ObjectId)
      (clientIp : String) (domain : Option String) (now : Int)
  | update (env : UpdateEnv) (urlId : ObjectId) (request : UpdateUrlRequest)
      (ownerId : ObjectId) (clientIp : Option String) (now : Int)
  | bulkMoveDomain (env : UpdateEnv) (ids : List ObjectId) (domain : Option String)
      (ownerId : ObjectId) (now : Int)
  | shorten (env : LegacyEnv cfg) (request : LegacyRequest)
  | emoji (env : LegacyEnv cfg) (request : LegacyRequest)

namespace LinkChange

variable {cfg : AliasConfig} (edge : EdgeConfig) (s : Stores)

/-- Run the operation. A batch asks for the aliases of its links on the stores it begins on: while
it runs it takes keys of `urlsV2` alone, and the unique index sees to these. -/
def run : LinkChange cfg → Stores
  | create env request ownerId clientIp domain now =>
    (UrlService.create (env.onStores cfg s) edge request ownerId clientIp domain now s).2
  | update env urlId request ownerId clientIp now =>
    (UrlService.update (env.onStores cfg s) edge urlId request ownerId clientIp now s).2
  | bulkMoveDomain env ids domain ownerId now =>
    (BulkUrlService.bulkMoveDomain (env.onStores cfg s) edge ids domain ownerId now s).2
  | shorten env request => (LegacyShortener.shortenUrl env request s).2
  | emoji env request => (LegacyShortener.emoji env request s).2

/-- The operation succeeds. A batch always answers, link by link. -/
def Succeeds : LinkChange cfg → Prop
  | create env request ownerId clientIp domain now => ∃ result,
    (UrlService.create (env.onStores cfg s) edge request ownerId clientIp domain now s).1 =
      .ok result
  | update env urlId request ownerId clientIp now => ∃ doc,
    (UrlService.update (env.onStores cfg s) edge urlId request ownerId clientIp now s).1 =
      some (.ok doc)
  | bulkMoveDomain .. => True
  | shorten env request => ∃ row, LegacyShortener.buildShorten env request s = .ok row ∧
    (LegacyUrlRepository.insert s.legacy row).isSome = true
  | emoji env request => ∃ row, LegacyShortener.buildEmoji env request s = .ok row ∧
    (LegacyUrlRepository.insert s.emoji row).isSome = true

/-- A v2 creation on the system domain is left to draw an alphanumeric alias, and the first draw
that `urlsV2` does not have is the code of a v1 link. -/
def DrawsLegacyCode : LinkChange cfg → Prop
  | create env request _ _ domain _ =>
    orNone request.linkAlias = none ∧ request.aliasType = .alphanumeric ∧
      scopeOf cfg.toDispatchConfig domain = cfg.systemDefaultDomain ∧
      ∃ code, (((List.range 10).map fun n => (env.shortCode n).code).find? fun candidate =>
          !UrlRepository.checkAliasExists s.urls candidate cfg.systemDefaultDomain) = some code ∧
        LegacyUrlRepository.checkExists s.legacy code = true
  | _ => False

end LinkChange

/-! ## A v2 creation -/

section

variable {cfg : AliasConfig} {s : Stores} {env : CreateEnv} {edge : EdgeConfig}
  {request : CreateUrlRequest} {ownerId : Option ObjectId} {clientIp : String}
  {domain : Option String} {now : Int}

/-- Where the alias of a new link comes from: it was asked for and checked, drawn from the emoji
pool and found free, or drawn where `urlsV2` alone was asked. -/
theorem chooseAlias_ok {env : CreateEnv} {scope linkAlias : String}
    (h : chooseAlias env request scope s = .ok linkAlias) :
    (∃ requested, orNone request.linkAlias = some requested ∧
        env.canonicalAlias requested = .ok linkAlias ∧ env.KeyFree scope linkAlias) ∨
      (orNone request.linkAlias = none ∧ request.aliasType = .emoji ∧
        ((List.range 10).map env.emojiAlias).find? (fun candidate =>
          env.aliasAvailable candidate scope) = some linkAlias) ∨
      (orNone request.linkAlias = none ∧ request.aliasType = .alphanumeric) ∧
        ((List.range 10).map fun n => (env.shortCode n).code).find? (fun candidate =>
          !UrlRepository.checkAliasExists s.urls candidate scope) = some linkAlias := by
  have drawn {draw : Nat → String} {free : String → Bool} (h : firstFree draw free = .ok linkAlias) :
      ((List.range 10).map draw).find? free = some linkAlias := by
    unfold firstFree at h
    split at h
    · rename_i hfind
      rw [hfind, Except.ok.inj h]
    · cases h
  unfold chooseAlias at h
  split at h
  · rename_i requested hrequested
    obtain ⟨canonical, hcanonical, h⟩ := bind_eq_ok.1 h
    split at h
    · cases h
    · rename_i hopen
      split at h
      · cases h
      · rename_i hfree
        cases h
        exact .inl ⟨requested, hrequested, hcanonical, hopen, by simpa using hfree⟩
  · rename_i hnone
    split at h
    · rename_i htype
      exact .inr (.inl ⟨hnone, htype, drawn h⟩)
    · rename_i htype
      refine .inr (.inr ⟨⟨hnone, ?_⟩, drawn h⟩)
      cases hcase : request.aliasType with
      | alphanumeric => rfl
      | emoji => exact absurd hcase htype

/-- A new alias that was not drawn from letters and digits is free. -/
theorem available_of_chooseAlias {scope linkAlias : String}
    (h : chooseAlias (env.onStores cfg s) request scope s = .ok linkAlias) :
    ¬(orNone request.linkAlias = none ∧ request.aliasType = .alphanumeric) ∧
        checkAliasAvailable cfg.toDispatchConfig s linkAlias (some scope) = true ∨
      (orNone request.linkAlias = none ∧ request.aliasType = .alphanumeric) ∧
        ((List.range 10).map fun n => (env.shortCode n).code).find? (fun candidate =>
          !UrlRepository.checkAliasExists s.urls candidate scope) = some linkAlias := by
  rcases chooseAlias_ok h with ⟨requested, hrequested, -, -, hfree⟩ | ⟨-, htype, hfind⟩ | hdrawn
  · exact .inl ⟨fun hnone => by simp [hrequested] at hnone, hfree⟩
  · refine .inl ⟨fun hdrawn => by simp [htype] at hdrawn, ?_⟩
    exact List.find?_some (p := fun c => (env.onStores cfg s).aliasAvailable c scope) hfind
  · exact .inr hdrawn

/-- A drawn alias is alphanumeric and not of the length at which v1 links come first. -/
theorem drawn_alphanumeric {draw : Nat → ShortCode 7} {free : String → Bool} {code : String}
    (h : ((List.range 10).map fun n => (draw n).code).find? free = some code) :
    code.toList.all isAliasChar = true ∧ code.length = 7 := by
  obtain ⟨n, -, rfl⟩ := List.mem_map.1 (List.mem_of_find?_eq_some h)
  refine ⟨?_, (draw n).length_code⟩
  have hall := List.all_eq_true.1 (draw n).alphanumeric
  exact List.all_eq_true.2 fun c hc => by simp [isAliasChar, hall c hc]

/-- A new v2 link keeps the others if and only if its key masks no code. -/
theorem keepsLinks_created_iff {result : UrlV2Doc × Option String}
    (h : (create (env.onStores cfg s) edge request ownerId clientIp domain now s).1 = .ok result) :
    ∃ linkAlias, chooseAlias (env.onStores cfg s) request (scopeOf cfg.toDispatchConfig domain) s =
        .ok linkAlias ∧
      (KeepsLinks cfg.toDispatchConfig s
          (create (env.onStores cfg s) edge request ownerId clientIp domain now s).2 ↔
        ∀ probed code, ¬Probe.Masks s.linkAt
          (.v2 (scopeOf cfg.toDispatchConfig domain) linkAlias)
          (codeProbes cfg.toDispatchConfig probed code)) := by
  obtain ⟨-, hfailed⟩ | ⟨row, urls, hbuild, hinsert, hcreate⟩ :=
    @create_cases (env.onStores cfg s) request ownerId clientIp domain now s edge
  · exact absurd h (hfailed result)
  have hscope : targetDomain (env.onStores cfg s).toUpdateEnv domain =
      scopeOf cfg.toDispatchConfig domain := targetDomain_onStores env.toUpdateEnv cfg s domain
  obtain ⟨metaTags, linkAlias, tagIds, -, hchoose, hrow⟩ := buildRow_ok hbuild
  rw [hscope] at hchoose hrow
  have hdomain : row.domain = scopeOf cfg.toDispatchConfig domain := by rw [hrow]; rfl
  have halias : row.linkAlias = linkAlias := by rw [hrow]; rfl
  subst halias
  refine ⟨row.linkAlias, hchoose, ?_⟩
  rw [hcreate, ← hdomain]
  refine Fills.keepsLinks_iff (fills_insertUrl hinsert rfl rfl) (not_keyMoved ?_)
  intro id found found' hfound hfound'
  have hlookup := lookup_insertOne hinsert id
  rw [hfound, Option.some_or] at hlookup
  exact Option.some.inj (hfound'.symm.trans hlookup)

/-- A new v2 link keeps the others, unless it has drawn the code of a v1 link. -/
theorem keepsLinks_create_iff {result : UrlV2Doc × Option String} (hlib : cfg.lib.Lawful)
    (hids : Vs16Ids cfg.lib s.emoji)
    (h : (create (env.onStores cfg s) edge request ownerId clientIp domain now s).1 = .ok result) :
    KeepsLinks cfg.toDispatchConfig s
        (create (env.onStores cfg s) edge request ownerId clientIp domain now s).2 ↔
      ¬(LinkChange.create env request ownerId clientIp domain now : LinkChange cfg).DrawsLegacyCode
        s := by
  obtain ⟨linkAlias, hchoose, hkeeps⟩ := keepsLinks_created_iff h
  rw [hkeeps]
  rcases available_of_chooseAlias hchoose with ⟨hnot, havailable⟩ | ⟨hdrawn, hfind⟩
  · -- The alias was checked against every generation.
    refine iff_of_true (not_masks_of_available hlib hids havailable rfl rfl) ?_
    rintro ⟨hnone, htype, -⟩
    exact hnot ⟨hnone, htype⟩
  · obtain ⟨halias, hlen⟩ := drawn_alphanumeric hfind
    by_cases hsystem : scopeOf cfg.toDispatchConfig domain = cfg.systemDefaultDomain
    · -- `urlsV2` alone was asked, so that the v1 link of the same code is masked.
      rw [hsystem] at hfind ⊢
      simp only [masks_alphanumeric_iff hlib halias]
      constructor
      · rintro hclear ⟨-, -, -, code, hdraw, hfound⟩
        cases Option.some.inj (hfind.symm.trans hdraw)
        exact hclear domain linkAlias ⟨hsystem, rfl, by rw [hlen]; decide, hfound⟩
      · rintro hclear probed code ⟨-, rfl, -, hfound⟩
        exact hclear ⟨hdrawn.1, hdrawn.2, hsystem, code, hfind, hfound⟩
    · refine iff_of_true (not_masks_custom hsystem) ?_
      rintro ⟨-, -, hsame, -⟩
      exact hsystem hsame

end

/-! ## An update -/

section

variable {cfg : AliasConfig} {s : Stores} {env : UpdateEnv} {edge : EdgeConfig}
  {urlId ownerId : ObjectId} {request : UpdateUrlRequest} {clientIp : Option String} {now : Int}

/-- An update has no business with the older generations. -/
theorem legacy_update : (update env edge urlId request ownerId clientIp now s).2.legacy = s.legacy ∧
    (update env edge urlId request ownerId clientIp now s).2.emoji = s.emoji := by
  refine runActions_invariant (P := fun t : Stores => t.legacy = s.legacy ∧ t.emoji = s.emoji)
    (fun call hcall v t ht => ?_) ({} : OwnerVars) s ⟨rfl, rfl⟩
  simp only [updateCalls, List.mem_cons, List.not_mem_nil, or_false] at hcall
  rcases hcall with rfl | rfl | rfl | rfl
  · rw [readForUpdate_stores]
    exact ht
  · unfold writeUpdate
    split
    · split <;> exact ht
    · exact ht
  · unfold invalidateKeys onPending
    split
    · dsimp only
      split <;> exact ht
    · exact ht
  · unfold reconcileEdge onPending
    split <;> exact ht

/-- A renamed or moved link keeps the others: its new key was checked. -/
theorem keepsLinks_update (hlib : cfg.lib.Lawful) (hids : Vs16Ids cfg.lib s.emoji) :
    KeepsLinks cfg.toDispatchConfig s
      (update (env.onStores cfg s) edge urlId request ownerId clientIp now s).2 := by
  let after := (update (env.onStores cfg s) edge urlId request ownerId clientIp now s).2
  have hcases : after = s ∨ _ := update_cases
  rcases hcases with hsame | ⟨row, built, urls, hrow, hbuild, hwrite, hurls, -⟩
  · exact keepsLinks_of_linkAt (congrArg Stores.linkAt hsame)
  obtain ⟨hlegacy, hemoji⟩ : after.legacy = s.legacy ∧ after.emoji = s.emoji := legacy_update
  obtain ⟨hmem, hid⟩ := lookup_eq_some_iff.1 hrow
  rw [← hurls] at hwrite
  refine keepsLinks_write hwrite hlegacy hemoji hmem (fun d hd => ?_) fun hmoved => ?_
  · rw [UrlRepository.matches_idFilter, decide_eq_true_iff]
    exact ⟨fun h => List.inj_on_of_nodup_map s.urls.nodup_id hd hmem (h.trans hid.symm),
      fun h => h ▸ hid⟩
  · rcases buildOps_key hbuild with ⟨halias, hdomain⟩ | hchecked
    · exact absurd (Prod.ext hdomain halias) hmoved
    · exact not_masks_of_available hlib hids hchecked.2 rfl rfl

end

/-! ## A batch of moves -/

section

variable {cfg : AliasConfig} {s t u : Stores} {target : String}

/-- The links are those of before, each at its old domain or at the target. -/
def MovedTo (target : String) (before after : UrlStore) : Prop :=
  ∀ id, Option.Rel (fun row row' : UrlRow => row'.ownerId = row.ownerId ∧
    row'.linkAlias = row.linkAlias ∧ (row'.domain = row.domain ∨ row'.domain = target))
    (before.lookup id) (after.lookup id)

namespace MovedTo

theorem refl (urls : UrlStore) : MovedTo target urls urls := fun id => by
  cases urls.lookup id with
  | none => exact .none
  | some row => exact .some ⟨rfl, rfl, .inl rfl⟩

theorem lookup_left {before after : UrlStore} (h : MovedTo target before after) {id : ObjectId}
    {row' : UrlRow} (hrow' : after.lookup id = some row') :
    ∃ row, before.lookup id = some row ∧ row'.ownerId = row.ownerId ∧
      row'.linkAlias = row.linkAlias ∧ (row'.domain = row.domain ∨ row'.domain = target) := by
  have hrel := h id
  rw [hrow'] at hrel
  generalize before.lookup id = found at hrel
  cases hrel with
  | some hrow => exact ⟨_, rfl, hrow⟩

theorem lookup_right {before after : UrlStore} (h : MovedTo target before after) {id : ObjectId}
    {row : UrlRow} (hrow : before.lookup id = some row) :
    ∃ row', after.lookup id = some row' ∧ row'.ownerId = row.ownerId ∧
      row'.linkAlias = row.linkAlias ∧ (row'.domain = row.domain ∨ row'.domain = target) := by
  have hrel := h id
  rw [hrow] at hrel
  generalize after.lookup id = found at hrel
  cases hrel with
  | some hrow' => exact ⟨_, rfl, hrow'⟩

theorem trans {before between after : UrlStore} (h : MovedTo target before between)
    (h' : MovedTo target between after) : MovedTo target before after := fun id => by
  have hrel := h id
  have hrel' := h' id
  generalize before.lookup id = row at hrel
  generalize between.lookup id = row' at hrel hrel'
  generalize after.lookup id = row'' at hrel'
  cases hrel with
  | none =>
    cases hrel'
    exact .none
  | some hrow =>
    cases hrel' with
    | some hrow' =>
      refine .some ⟨hrow'.1.trans hrow.1, hrow'.2.1.trans hrow.2.1, ?_⟩
      rcases hrow'.2.2 with hsame | hmoved
      · rw [hsame]
        exact hrow.2.2
      · exact .inr hmoved

end MovedTo

/-- Links that are kept by each of two moves to one domain are kept by both. -/
theorem KeepsLinks.trans (h : KeepsLinks cfg.toDispatchConfig s t)
    (h' : KeepsLinks cfg.toDispatchConfig t u) (hmoved : MovedTo target s.urls t.urls)
    (hmoved' : MovedTo target t.urls u.urls) : KeepsLinks cfg.toDispatchConfig s u := by
  intro domain code link hlink
  rcases h domain code link hlink with hgone | ⟨link', hlink', href⟩
  · -- A link that went to the target is still there.
    obtain ⟨id, row, row', hid, hrow, hrow', hne⟩ := hgone
    obtain ⟨row₀, hrow₀, -, halias, hdomain⟩ := hmoved.lookup_left hrow'
    cases Option.some.inj (hrow.symm.trans hrow₀)
    obtain ⟨row'', hrow'', -, -, hdomain'⟩ := hmoved'.lookup_right hrow'
    refine .inl ⟨id, row, row'', hid, hrow, hrow'', fun heq => hne (Prod.ext ?_ halias)⟩
    have hback : row''.domain = row.domain := (Prod.mk.inj heq).1
    rcases hdomain with hsame | hto
    · exact hsame
    · rcases hdomain' with hsame | hto'
      · exact hsame.symm.trans hback
      · exact hto.trans (hto'.symm.trans hback)
  · rcases h' domain code link' hlink' with hgone | ⟨link'', hlink'', href'⟩
    · -- A link that went there later was not there before.
      obtain ⟨id, row', row'', hid, hrow', hrow'', hne⟩ := hgone
      obtain ⟨row, hrow, -, -, hdomain⟩ := hmoved.lookup_left hrow'
      obtain ⟨row₁, hrow₁, -, halias', hdomain'⟩ := hmoved'.lookup_right hrow'
      cases Option.some.inj (hrow''.symm.trans hrow₁)
      refine .inl ⟨id, row, row'', href ▸ hid, hrow, hrow'',
        fun heq => hne (Prod.ext ?_ halias')⟩
      have hback : row''.domain = row.domain := (Prod.mk.inj heq).1
      rcases hdomain' with hsame | hto'
      · exact hsame
      · rcases hdomain with hsame | hto
        · exact hback.trans hsame.symm
        · exact hto'.trans hto.symm
    · exact .inr ⟨link'', hlink'', href'.trans href⟩

variable {env : UpdateEnv} {edge : EdgeConfig} {ids : List ObjectId} {domain : Option String}
  {ownerId : ObjectId} {now : Int}

/-- What a move writes. -/
def moveOps (target : String) (now : Int) : UrlOps :=
  { domain := some target, updatedAt := some now }

/-- An item leaves `urlsV2` alone, or moves one link to a key that was checked. -/
theorem moveItem_cases (m : MoveState) (doc : UrlV2Doc) :
    (moveItem env target ownerId now m doc).urls = m.urls ∧
        (moveItem env target ownerId now m doc).claimed = m.claimed ∧
        (moveItem env target ownerId now m doc).moved = m.moved ∨
      env.KeyFree target doc.linkAlias ∧
        UrlRepository.updateByIdsAndOwner m.urls [doc.id] ownerId (moveOps target now).toUpdate =
          some (moveItem env target ownerId now m doc).urls ∧
        (moveItem env target ownerId now m doc).claimed = doc.linkAlias :: m.claimed ∧
        (moveItem env target ownerId now m doc).moved = m.moved ++ [doc] ∧
        doc.domain ≠ target ∧ doc.linkAlias ∉ m.claimed := by
  unfold moveItem
  dsimp only
  split
  · exact .inl ⟨rfl, rfl, rfl⟩
  · rename_i helsewhere
    split
    · exact .inl ⟨rfl, rfl, rfl⟩
    · rename_i hopen
      split
      · exact .inl ⟨rfl, rfl, rfl⟩
      · rename_i hfree
        split
        · exact .inl ⟨rfl, rfl, rfl⟩
        · rename_i urls hwrite
          simp only [not_or, Bool.not_eq_true, Bool.not_eq_false'] at hfree
          exact .inr ⟨⟨hopen, hfree.2⟩, hwrite, rfl, rfl, helsewhere, hfree.1⟩

/-- An item moves links to the target and nowhere else. -/
theorem movedTo_moveItem (m : MoveState) (doc : UrlV2Doc) :
    MovedTo target m.urls (moveItem env target ownerId now m doc).urls := by
  rcases moveItem_cases m doc with ⟨hurls, -⟩ | ⟨-, hwrite, -⟩
  · rw [hurls]
    exact .refl m.urls
  · intro id
    rw [lookup_updateManyUnique hwrite]
    cases m.urls.lookup id with
    | none => exact .none
    | some found =>
      refine .some ?_
      unfold applyWhere
      split
      · exact ⟨rfl, rfl, .inr rfl⟩
      · exact ⟨rfl, rfl, .inl rfl⟩

/-- A filter on one id and its owner selects one link. -/
private theorem matches_idsAndOwner_iff {urls : UrlStore} {row : UrlRow}
    (hrow : urls.lookup row.id = some row) (howner : row.ownerId = ownerId) :
    ∀ d ∈ urls.docs, (UrlRepository.idsAndOwnerFilter [row.id] ownerId).Matches d = true ↔
      d = row := by
  intro d hd
  have hmem := (lookup_eq_some_iff.1 hrow).1
  rw [UrlRepository.matches_idsAndOwnerFilter, Bool.and_eq_true, decide_eq_true_iff,
    decide_eq_true_iff, List.mem_singleton]
  constructor
  · exact fun h => List.inj_on_of_nodup_map urls.nodup_id hd hmem h.1
  · rintro rfl
    exact ⟨rfl, howner⟩

/-- What the items of a batch have done to the keys so far. -/
structure Claiming (s : Stores) (target : String) (m : MoveState) : Prop where
  moved : MovedTo target s.urls m.urls
  /-- The batch has taken no alias that it did not claim. -/
  unclaimed : ∀ linkAlias, linkAlias ∉ m.claimed →
    m.urls.idAt (target, linkAlias) = s.urls.idAt (target, linkAlias)

/-- What the items of a batch have done so far. -/
structure Moving (cfg : DispatchConfig) (s : Stores) (target : String) (m : MoveState) : Prop
    extends Claiming s target m where
  keeps : KeepsLinks cfg s { s with urls := m.urls }

/-- What an item does to the keys. -/
theorem Claiming.step {m : MoveState} {row : UrlRow} (h : Claiming s target m)
    (hrow : s.urls.lookup row.id = some row) (howner : row.ownerId = ownerId) :
    Claiming s target (moveItem env target ownerId now m (.fromMongo row)) := by
  have hmoved : MovedTo target m.urls (moveItem env target ownerId now m (.fromMongo row)).urls :=
    movedTo_moveItem m (.fromMongo row)
  rcases moveItem_cases m (.fromMongo row) with ⟨hurls, hclaimed, -⟩ | ⟨-, hwrite, hclaimed, -⟩
  · exact ⟨hurls ▸ h.moved, hurls ▸ hclaimed ▸ h.unclaimed⟩
  generalize moveItem env target ownerId now m (.fromMongo row) = m' at *
  obtain ⟨row', hrow', howner', halias', -⟩ := h.moved.lookup_right hrow
  obtain ⟨hmem, hid⟩ := lookup_eq_some_iff.1 hrow'
  have hid : row'.id = row.id := hid
  have hq := matches_idsAndOwner_iff (hid ▸ hrow') (howner'.trans howner)
  rw [hid] at hq
  refine ⟨h.moved.trans hmoved, fun linkAlias hfree => ?_⟩
  rw [hclaimed, List.mem_cons, not_or] at hfree
  have hother (domain : String) : (target, linkAlias) ≠ (domain, row'.linkAlias) :=
    fun heq => hfree.1 ((Prod.mk.inj heq).2.trans halias')
  have hold : (target, linkAlias) ≠ Document.key row' := hother row'.domain
  have hnew : (target, linkAlias) ≠
      Document.key ((moveOps target now).toUpdate.apply row') := hother target
  rw [(idAt_updateManyUnique hwrite hmem hq).1, Function.update_of_ne hnew,
    Function.update_of_ne hold]
  exact h.unclaimed linkAlias hfree.2

theorem moving_step {m : MoveState} {row : UrlRow} (hlib : cfg.lib.Lawful)
    (hids : Vs16Ids cfg.lib s.emoji) (h : Moving cfg.toDispatchConfig s target m)
    (hrow : s.urls.lookup row.id = some row) (howner : row.ownerId = ownerId) :
    Moving cfg.toDispatchConfig s target
      (moveItem (env.onStores cfg s) target ownerId now m (.fromMongo row)) := by
  refine ⟨h.toClaiming.step hrow howner, ?_⟩
  have hmoved : MovedTo target m.urls
      (moveItem (env.onStores cfg s) target ownerId now m (.fromMongo row)).urls :=
    movedTo_moveItem m (.fromMongo row)
  rcases moveItem_cases m (.fromMongo row) with ⟨hurls, -⟩ | ⟨hchecked, hwrite, -⟩
  · exact hurls ▸ h.keeps
  generalize moveItem (env.onStores cfg s) target ownerId now m (.fromMongo row) = m' at *
  obtain ⟨row', hrow', howner', halias', -⟩ := h.moved.lookup_right hrow
  obtain ⟨hmem, hid⟩ := lookup_eq_some_iff.1 hrow'
  have hid : row'.id = row.id := hid
  have hq := matches_idsAndOwner_iff (hid ▸ hrow') (howner'.trans howner)
  rw [hid] at hq
  refine h.keeps.trans ?_ h.moved hmoved
  refine keepsLinks_write (s := { s with urls := m.urls }) hwrite rfl rfl hmem hq fun _ => ?_
  have hkey : CodeSlot.ofKey (Document.key ((moveOps target now).toUpdate.apply row')) =
      .v2 target row.linkAlias := by
    rw [← halias']
    rfl
  rw [hkey]
  exact not_masks_of_available hlib hids hchecked.2 rfl rfl

/-- The answers of a batch are those it would have on the stores as its items leave them. -/
theorem moveItem_onStores {m : MoveState} (h : Claiming s target m)
    (htarget : scopeOf cfg.toDispatchConfig (some target) = target) (doc : UrlV2Doc) :
    moveItem (env.onStores cfg s) target ownerId now m doc =
      moveItem (env.onStores cfg { s with urls := m.urls }) target ownerId now m doc := by
  by_cases hclaimed : doc.linkAlias ∈ m.claimed
  · simp [moveItem, hclaimed, UpdateEnv.onStores]
  · have hexists : UrlRepository.checkAliasExists m.urls doc.linkAlias target =
        UrlRepository.checkAliasExists s.urls doc.linkAlias target := by
      have hunclaimed := congrArg (Option.isSome ∘ Option.map LinkRef.v2)
        (h.unclaimed doc.linkAlias hclaimed)
      have hnow := isSome_linkAt_v2 (s := { s with urls := m.urls }) target doc.linkAlias
      exact hnow.symm.trans (hunclaimed.trans (isSome_linkAt_v2 target doc.linkAlias))
    have havailable : (env.onStores cfg { s with urls := m.urls }).aliasAvailable doc.linkAlias
        target = (env.onStores cfg s).aliasAvailable doc.linkAlias target := by
      show checkAliasAvailable _ _ _ _ = checkAliasAvailable _ _ _ _
      simp only [checkAliasAvailable, htarget, hexists]
    unfold moveItem
    rw [havailable]
    rfl

/-- A batch before its first item. -/
theorem claiming_start (batch : BulkBatch) : Claiming s target { batch, urls := s.urls } :=
  ⟨.refl _, fun _ _ => rfl⟩

theorem moving_start (batch : BulkBatch) :
    Moving cfg.toDispatchConfig s target { batch, urls := s.urls } :=
  ⟨claiming_start batch, keepsLinks_of_linkAt rfl⟩

/-- The answers of a batch are those it would have if each item asked the stores as they are. -/
theorem foldl_moveItem_onStores (message : String) :
    let target := targetDomain (env.onStores cfg s) domain
    let batch := load s.urls ids ownerId message
    batch.pending.foldl (moveItem (env.onStores cfg s) target ownerId now)
        { batch, urls := s.urls } =
      batch.pending.foldl (fun m => moveItem (env.onStores cfg { s with urls := m.urls }) target
        ownerId now m) { batch, urls := s.urls } := by
  intro target batch
  have htarget : scopeOf cfg.toDispatchConfig (some target) = target := by
    simp [target, targetDomain_onStores]
  suffices hfold : ∀ (docs : List UrlV2Doc) (m : MoveState), docs ⊆ batch.pending →
      Claiming s target m →
      docs.foldl (moveItem (env.onStores cfg s) target ownerId now) m =
        docs.foldl (fun m => moveItem (env.onStores cfg { s with urls := m.urls }) target ownerId
          now m) m from
    hfold batch.pending _ (List.Subset.refl _) (claiming_start batch)
  intro docs
  induction docs with
  | nil => exact fun _ _ _ => rfl
  | cons doc docs ih =>
    intro m hdocs hm
    obtain ⟨row, hrow, rfl, -, howner, -⟩ := mem_pending_load.1 (hdocs List.mem_cons_self)
    rw [List.foldl_cons, List.foldl_cons, ← moveItem_onStores hm htarget]
    exact ih _ (List.subset_of_cons_subset hdocs) (hm.step hrow howner)

/-- A batch of moves keeps the links that it does not move. -/
theorem keepsLinks_bulkMoveDomain (hlib : cfg.lib.Lawful) (hids : Vs16Ids cfg.lib s.emoji) :
    KeepsLinks cfg.toDispatchConfig s
      (bulkMoveDomain (env.onStores cfg s) edge ids domain ownerId now s).2 := by
  let target := targetDomain (env.onStores cfg s) domain
  let batch := load s.urls ids ownerId "Cannot modify a blocked URL"
  have hend : Moving cfg.toDispatchConfig s target (batch.pending.foldl
      (moveItem (env.onStores cfg s) target ownerId now) { batch, urls := s.urls }) := by
    refine List.foldlRecOn _ _ (moving_start batch) fun m hm doc hdoc => ?_
    obtain ⟨row, hrow, rfl, -, howner, -⟩ := mem_pending_load.1 hdoc
    exact moving_step hlib hids hm hrow howner
  exact hend.keeps

end

/-! ## The older generations -/

namespace LegacyShortener

variable {cfg : AliasConfig} {s : Stores} {env : LegacyEnv cfg} {request : LegacyRequest}
  {row : LegacyUrlRow} {url code : String}

/-- A new v1 link takes a code that no v2 link of the system domain has. -/
theorem chooseShortCode_ok (h : chooseShortCode env request url s = .ok code) :
    s.linkAt (.v2 cfg.systemDefaultDomain code) = none := by
  have hfree : UrlRepository.checkAliasExists s.urls code cfg.systemDefaultDomain = false := by
    unfold chooseShortCode at h
    split at h
    · dsimp only at h
      split at h
      · cases h
      · split at h
        · cases h
        · rename_i havailable
          cases h
          rw [Bool.not_eq_true, Bool.not_eq_false'] at havailable
          have hnone := not_exists_of_available havailable
          exact hnone
    · split at h
      · rename_i hfind
        cases h
        have hboth := List.find?_some hfind
        rw [Bool.and_eq_true, Bool.not_eq_true', Bool.not_eq_true'] at hboth
        exact hboth.2
      · cases h
  rwa [← isSome_linkAt_v2, Option.isSome_eq_false_iff, Option.isNone_iff_eq_none] at hfree

/-- A new emoji link takes a canonical code. -/
theorem chooseEmojies_ok (hlib : cfg.lib.Lawful) (h : chooseEmojies env request s = .ok code) :
    canonicalizeEmojiAlias cfg.lib code = code := by
  unfold chooseEmojies at h
  split at h
  · dsimp only at h
    split at h
    · cases h
    · split at h
      · cases h
      · rename_i hcheck _
        cases h
        exact canonicalizeEmojiAlias_of_ok hlib (not_not.1 hcheck)
  · split at h
    · rename_i hfind
      cases h
      obtain ⟨n, -, rfl⟩ := List.mem_map.1 (List.mem_of_find?_eq_some hfind)
      have haccepted : ∀ emoji ∈ (env.emojiCode n).emojis,
          graphemeAccepted cfg.lib emoji defaultGenerateMaxVersion = true := by
        intro emoji hemoji
        have hpool := (env.emojiCode n).inPool emoji hemoji
        rw [inGenerationPool, Bool.and_eq_true] at hpool
        exact hpool.1
      exact canonicalizeEmojiAlias_join hlib haccepted
    · cases h

/-- A new emoji link takes a code that is free. -/
theorem available_of_chooseEmojies (h : chooseEmojies env request s = .ok code) :
    checkAliasAvailable cfg.toDispatchConfig s code none = true := by
  unfold chooseEmojies at h
  split at h
  · dsimp only at h
    split at h
    · cases h
    · split at h
      · cases h
      · rename_i hfree
        cases h
        simpa using hfree
  · split at h
    · rename_i hfind
      cases h
      exact List.find?_some (p := fun c => checkAliasAvailable cfg.toDispatchConfig s c none) hfind
    · cases h

theorem newLink_code (h : newLink env request url code = .ok row) : row.code = code := by
  obtain ⟨_, -, h⟩ := bind_eq_ok.1 h
  obtain ⟨_, -, h⟩ := bind_eq_ok.1 h
  cases h
  rfl

theorem buildShorten_ok (h : buildShorten env request s = .ok row) :
    ∃ url, chooseShortCode env request url s = .ok row.code := by
  unfold buildShorten at h
  split at h
  · cases h
  · rename_i url _
    obtain ⟨_, -, h⟩ := bind_eq_ok.1 h
    obtain ⟨code, hchoose, h⟩ := bind_eq_ok.1 h
    exact ⟨url, by rw [newLink_code h, hchoose]⟩

theorem buildEmoji_ok (h : buildEmoji env request s = .ok row) :
    chooseEmojies env request s = .ok row.code := by
  unfold buildEmoji at h
  split at h
  · cases h
  · obtain ⟨code, hchoose, h⟩ := bind_eq_ok.1 h
    obtain ⟨_, -, h⟩ := bind_eq_ok.1 h
    rw [newLink_code h, hchoose]

theorem shortenUrl_cases : (shortenUrl env request s).2 = s ∨
    ∃ row legacy, buildShorten env request s = .ok row ∧ s.legacy.insertOne row = some legacy ∧
      (shortenUrl env request s).2 = { s with legacy } := by
  unfold shortenUrl
  cases hbuild : buildShorten env request s with
  | error response => exact .inl rfl
  | ok row =>
    dsimp only
    cases hinsert : LegacyUrlRepository.insert s.legacy row with
    | none => exact .inl rfl
    | some legacy => exact .inr ⟨row, legacy, rfl, hinsert, rfl⟩

theorem emoji_cases : (emoji env request s).2 = s ∨
    ∃ row emojis, buildEmoji env request s = .ok row ∧ s.emoji.insertOne row = some emojis ∧
      (emoji env request s).2 = { s with emoji := emojis } := by
  unfold emoji
  cases hbuild : buildEmoji env request s with
  | error response => exact .inl rfl
  | ok row =>
    dsimp only
    cases hinsert : LegacyUrlRepository.insert s.emoji row with
    | none => exact .inl rfl
    | some emojis => exact .inr ⟨row, emojis, rfl, hinsert, rfl⟩

/-- A new v1 link keeps the others. -/
theorem keepsLinks_shortenUrl :
    KeepsLinks cfg.toDispatchConfig s (shortenUrl env request s).2 := by
  rcases @shortenUrl_cases cfg s env request with hsame | ⟨row, legacy, hbuild, hinsert, hafter⟩
  · exact keepsLinks_of_linkAt (congrArg Stores.linkAt hsame)
  obtain ⟨url, hchoose⟩ := buildShorten_ok hbuild
  have hfill : Fills s { s with legacy } (.v1 row.code) (.v1 row.code) :=
    fills_insertLegacy hinsert rfl rfl
  rw [hafter, hfill.keepsLinks_iff (not_keyMoved_of_urls rfl)]
  exact not_masks_v1 (chooseShortCode_ok hchoose)

/-- A new emoji link keeps the others. -/
theorem keepsLinks_emoji (hlib : cfg.lib.Lawful) :
    KeepsLinks cfg.toDispatchConfig s (emoji env request s).2 := by
  rcases @emoji_cases cfg s env request with hsame | ⟨row, emojis, hbuild, hinsert, hafter⟩
  · exact keepsLinks_of_linkAt (congrArg Stores.linkAt hsame)
  have hfill : Fills s { s with emoji := emojis } (.emoji row.code) (.emoji row.code) :=
    fills_insertEmoji hinsert rfl rfl
  rw [hafter, hfill.keepsLinks_iff (not_keyMoved_of_urls rfl)]
  exact not_masks_emoji (chooseEmojies_ok hlib (buildEmoji_ok hbuild))

end LegacyShortener

/-! ## Every reachable state -/

/-- The states that a start leads to. Of what else the service does no more is said than that it
gives no emoji link another code. -/
inductive Reachable (cfg : AliasConfig) (edge : EdgeConfig) (start : Stores) : Stores → Prop where
  | start : Reachable cfg edge start start
  | change {s : Stores} (change : LinkChange cfg) (hs : Reachable cfg edge start s) :
      Reachable cfg edge start (change.run edge s)
  | other {s s' : Stores} (hs : Reachable cfg edge start s)
      (hcodes : ∀ row' ∈ s'.emoji.docs, ∃ row ∈ s.emoji.docs, row.code = row'.code) :
      Reachable cfg edge start s'

namespace LinkChange

variable {cfg : AliasConfig} {edge : EdgeConfig} {s : Stores}

/-- The operation may give an emoji link the code. -/
def GivesEmoji (s : Stores) (code : String) : LinkChange cfg → Prop
  | emoji env request => LegacyShortener.chooseEmojies env request s = .ok code
  | _ => False

/-- Only the emoji route adds to `emojis`. -/
theorem emoji_run (change : LinkChange cfg) {row : LegacyUrlRow}
    (h : row ∈ (change.run edge s).emoji.docs) :
    row ∈ s.emoji.docs ∨ change.GivesEmoji s row.code := by
  cases change with
  | create env request ownerId clientIp domain now =>
    have hemoji : (UrlService.create (env.onStores cfg s) edge request ownerId clientIp domain now
        s).2.emoji = s.emoji := by
      obtain ⟨hsame, -⟩ | ⟨_, _, -, -, hcreate⟩ :=
        @create_cases (env.onStores cfg s) request ownerId clientIp domain now s edge
      · rw [hsame]
      · rw [hcreate]
    exact .inl (hemoji ▸ h)
  | update env urlId request ownerId clientIp now =>
    rw [run, legacy_update.2] at h
    exact .inl h
  | bulkMoveDomain => exact .inl h
  | shorten env request =>
    have hemoji : (LegacyShortener.shortenUrl env request s).2.emoji = s.emoji := by
      obtain hsame | ⟨_, _, -, -, hafter⟩ := @LegacyShortener.shortenUrl_cases cfg s env request
      · rw [hsame]
      · rw [hafter]
    exact .inl (hemoji ▸ h)
  | emoji env request =>
    obtain hsame | ⟨new, emojis, hbuild, hinsert, hafter⟩ :=
      @LegacyShortener.emoji_cases cfg s env request
    · rw [run, hsame] at h
      exact .inl h
    · obtain ⟨-, -, hdocs⟩ := insertOne_eq_some hinsert
      rw [run, hafter, hdocs, List.mem_append, List.mem_singleton] at h
      rcases h with h | rfl
      · exact .inl h
      · exact .inr (LegacyShortener.buildEmoji_ok hbuild)

theorem GivesEmoji.canonical (hlib : cfg.lib.Lawful) {change : LinkChange cfg} {code : String}
    (h : change.GivesEmoji s code) : canonicalizeEmojiAlias cfg.lib code = code := by
  cases change with
  | emoji env request => exact LegacyShortener.chooseEmojies_ok hlib h
  | _ => cases h

/-- A new emoji link has a canonical code. -/
theorem vs16Ids_run (hlib : cfg.lib.Lawful) (h : Vs16Ids cfg.lib s.emoji)
    (change : LinkChange cfg) : Vs16Ids cfg.lib (change.run edge s).emoji := by
  intro row hrow
  rcases change.emoji_run hrow with hold | hnew
  · exact h row hold
  · rw [hnew.canonical hlib]
    exact matchesVs16Insensitive_refl _

end LinkChange

theorem Reachable.vs16Ids {cfg : AliasConfig} {edge : EdgeConfig} {start s : Stores}
    (hlib : cfg.lib.Lawful) (hstart : Vs16Ids cfg.lib start.emoji)
    (h : Reachable cfg edge start s) : Vs16Ids cfg.lib s.emoji := by
  induction h with
  | start => exact hstart
  | change change _ ih => exact change.vs16Ids_run hlib ih
  | other _ hcodes ih =>
    intro row' hrow'
    obtain ⟨row, hrow, hcode⟩ := hcodes row' hrow'
    rw [← hcode]
    exact ih row hrow

/-- In every reachable state, an operation that makes a link or gives one another key leaves each
code with its link, unless it draws a v2 alias that is the code of a v1 link. -/
theorem LinkChange.keepsLinks_run_iff {cfg : AliasConfig} {edge : EdgeConfig} {start s : Stores}
    (hlib : cfg.lib.Lawful) (hstart : Vs16Ids cfg.lib start.emoji)
    (hreach : Reachable cfg edge start s) (change : LinkChange cfg)
    (hdone : change.Succeeds edge s) :
    KeepsLinks cfg.toDispatchConfig s (change.run edge s) ↔ ¬change.DrawsLegacyCode s := by
  have hids := hreach.vs16Ids hlib hstart
  cases change with
  | create env request ownerId clientIp domain now =>
    obtain ⟨result, hresult⟩ := hdone
    exact keepsLinks_create_iff hlib hids hresult
  | update env urlId request ownerId clientIp now =>
    exact iff_of_true (keepsLinks_update hlib hids) id
  | bulkMoveDomain env ids domain ownerId now =>
    exact iff_of_true (keepsLinks_bulkMoveDomain hlib hids) id
  | shorten env request => exact iff_of_true LegacyShortener.keepsLinks_shortenUrl id
  | emoji env request => exact iff_of_true (LegacyShortener.keepsLinks_emoji hlib) id

/-- A deployment with one emoji. -/
def plainAliases : AliasConfig where
  lib := starEmojiLib
  systemDefaultDomain := "spoo.me"
  maxEmojiAliasLength := 15
  emojiAcceptMaxVersion := 151 / 10

/-- A gate that lets every destination through, and draws that are all alike. -/
def plainLegacyEnv : LegacyEnv plainAliases where
  lib := asciiUrlLib
  checkPolicy _ := none
  urlPasswordMinLength := 8
  isDecimal := Char.isDigit
  readers := plainReaders
  shortCode _ := ⟨"bbbbbb", by decide, by decide⟩
  emojiCode _ := ⟨["⭐", "⭐", "⭐"], rfl, by decide +kernel⟩

/-- A v1 link is made under a code. -/
def shortenAs (code : String) : LinkChange plainAliases :=
  .shorten plainLegacyEnv {
    form := PyDict.ofList [("url", "https://b.example/"), ("alias", code)]
    hostUrl := "https://spoo.me/"
    hostname := "spoo.me" }

/-- A v2 link is made under a drawn code. -/
def drawLink : LinkChange plainAliases :=
  .create openCreateEnv scheduledRequest (some 7) "192.0.2.1" none 0

/-- The stores with one v1 link. -/
def olderLink (code : String) : Stores := (shortenAs code).run plainEdge noLinks

/-- The draw is not the code of the v1 link. -/
theorem LinkChange.keepsLinks_run_iff_drawn :
    KeepsLinks plainAliases.toDispatchConfig (olderLink "promo") (drawLink.run plainEdge
      (olderLink "promo")) ↔ ¬drawLink.DrawsLegacyCode (olderLink "promo") :=
  @LinkChange.keepsLinks_run_iff plainAliases plainEdge noLinks _ lawful_starEmojiLib
    (fun _ h => by cases h) (.change (shortenAs "promo") .start) drawLink ⟨_, rfl⟩

/-- A v1 link has the code that a v2 link then draws, and the code goes to the new link. -/
theorem drawn_code_changes_hands :
    Reachable plainAliases plainEdge noLinks (olderLink "aaaaaaa") ∧
    drawLink.Succeeds plainEdge (olderLink "aaaaaaa") ∧
    (resolveSelect plainAliases.toDispatchConfig (olderLink "aaaaaaa") none "aaaaaaa").map
      SelectedLink.ref = some (.v1 "aaaaaaa") ∧
    (resolveSelect plainAliases.toDispatchConfig (drawLink.run plainEdge (olderLink "aaaaaaa"))
      none "aaaaaaa").map SelectedLink.ref = some (.v2 1) ∧
    ¬KeepsLinks plainAliases.toDispatchConfig (olderLink "aaaaaaa")
      (drawLink.run plainEdge (olderLink "aaaaaaa")) := by
  have hbefore : (resolveSelect plainAliases.toDispatchConfig (olderLink "aaaaaaa") none
      "aaaaaaa").map SelectedLink.ref = some (.v1 "aaaaaaa") := by decide +kernel
  have hafter : (resolveSelect plainAliases.toDispatchConfig (drawLink.run plainEdge
      (olderLink "aaaaaaa")) none "aaaaaaa").map SelectedLink.ref = some (.v2 1) := by
    decide +kernel
  refine ⟨.change (shortenAs "aaaaaaa") .start, ⟨_, rfl⟩, hbefore, hafter, fun hkeeps => ?_⟩
  obtain ⟨link, hlink, href⟩ := Option.map_eq_some_iff.1 hbefore
  rcases hkeeps none "aaaaaaa" link hlink with ⟨id, _, _, hid, -⟩ | ⟨link', hlink', href'⟩
  · rw [href] at hid
    cases hid
  · rw [hlink', Option.map_some, href', href] at hafter
    cases hafter

end Spoo
