import Spoo.Proofs.LinkChanges

/-!
# The keys that links are given

An operation that makes a link or gives one another key leaves the keys of the other links alone,
and gives a link what its checks let through. A property of keys and codes is kept by an operation
when those it gives have it.
-/

namespace Spoo

open Fallible Interleave Mongo Mongo.Collection UrlService BulkUrlService

/-- Some v2 link has the key. -/
def HasKey (urls : UrlStore) (domain linkAlias : String) : Prop :=
  ∃ row ∈ urls.docs, row.domain = domain ∧ row.linkAlias = linkAlias

theorem not_hasKey_of_available {cfg : DispatchConfig} {s : Stores} {linkAlias : String}
    {domain : Option String} (h : checkAliasAvailable cfg s linkAlias domain = true) :
    ¬HasKey s.urls (scopeOf cfg domain) linkAlias := by
  have hnone := not_exists_of_available h
  rw [UrlRepository.checkAliasExists, Option.isSome_eq_false_iff, Option.isNone_iff_eq_none, findOne,
    List.find?_eq_none] at hnone
  rintro ⟨row, hrow, hdomain, halias⟩
  exact hnone row hrow (by simp [hdomain, halias])

theorem exists_insertOne {urls : UrlStore} {row : UrlRow} (hid : ∀ old ∈ urls.docs, old.id ≠ row.id)
    (hkey : ¬HasKey urls row.domain row.linkAlias) : ∃ after, urls.insertOne row = some after := by
  have hnewId : Document.id row ∉ urls.docs.map Document.id := by
    rw [List.mem_map]
    rintro ⟨old, hold, heq⟩
    exact hid old hold heq
  have hnewKey : Document.key row ∉ urls.docs.map Document.key := by
    rw [List.mem_map]
    rintro ⟨old, hold, heq⟩
    obtain ⟨hdomain, halias⟩ := Prod.mk.inj heq
    exact hkey ⟨old, hold, hdomain, halias⟩
  exact ⟨_, dif_pos ⟨hnewId, hnewKey⟩⟩

namespace LinkChange

variable {cfg : AliasConfig} {edge : EdgeConfig} {s : Stores}

/-- The operation may give a v2 link the key. -/
def GivesKey (s : Stores) (domain linkAlias : String) : LinkChange cfg → Prop
  | create env request _ _ target _ => domain = scopeOf cfg.toDispatchConfig target ∧
    chooseAlias (env.onStores cfg s) request domain s = .ok linkAlias
  | update env .. => (env.onStores cfg s).KeyFree domain linkAlias
  | bulkMoveDomain env .. => (env.onStores cfg s).KeyFree domain linkAlias
  | shorten .. => False
  | emoji .. => False

/-- The operation may give a v1 link the code. -/
def GivesCode (s : Stores) (code : String) : LinkChange cfg → Prop
  | shorten env request => ∃ url, LegacyShortener.chooseShortCode env request url s = .ok code
  | _ => False

end LinkChange

section

variable {cfg : AliasConfig} {edge : EdgeConfig} {s : Stores}

theorem hasKey_create {env : CreateEnv} {request : CreateUrlRequest} {ownerId : Option ObjectId}
    {clientIp : String} {target : Option String} {now : Int} {row : UrlRow}
    (h : row ∈ (create (env.onStores cfg s) edge request ownerId clientIp target now s).2.urls.docs) :
    HasKey s.urls row.domain row.linkAlias ∨
      (LinkChange.create env request ownerId clientIp target now : LinkChange cfg).GivesKey s
        row.domain row.linkAlias := by
  obtain ⟨hsame, -⟩ | ⟨new, urls, hbuild, hinsert, hcreate⟩ :=
    @create_cases (env.onStores cfg s) request ownerId clientIp target now s edge
  · rw [hsame] at h
    exact .inl ⟨row, h, rfl, rfl⟩
  · rw [hcreate] at h
    obtain ⟨-, -, hdocs⟩ := insertOne_eq_some hinsert
    simp only [hdocs, List.mem_append, List.mem_singleton] at h
    rcases h with h | rfl
    · exact .inl ⟨row, h, rfl, rfl⟩
    · obtain ⟨metaTags, linkAlias, tagIds, -, hchoose, hrow⟩ := buildRow_ok hbuild
      have hscope : targetDomain (env.onStores cfg s).toUpdateEnv target =
          scopeOf cfg.toDispatchConfig target := targetDomain_onStores env.toUpdateEnv cfg s target
      rw [hscope] at hchoose hrow
      rw [hrow]
      exact .inr ⟨rfl, hchoose⟩

theorem hasKey_update {env : UpdateEnv} {urlId ownerId : ObjectId} {request : UpdateUrlRequest}
    {clientIp : Option String} {now : Int} {row : UrlRow}
    (h : row ∈ (update (env.onStores cfg s) edge urlId request ownerId clientIp now s).2.urls.docs) :
    HasKey s.urls row.domain row.linkAlias ∨
      (env.onStores cfg s).KeyFree row.domain row.linkAlias := by
  let after := (update (env.onStores cfg s) edge urlId request ownerId clientIp now s).2
  have hcases : after = s ∨ _ := update_cases
  have h : row ∈ after.urls.docs := h
  rcases hcases with hsame | ⟨old, built, urls, hold, hbuild, hwrite, hurls, -⟩
  · rw [hsame] at h
    exact .inl ⟨row, h, rfl, rfl⟩
  · rw [hurls, docs_updateManyUnique hwrite, List.mem_map] at h
    obtain ⟨before, hbefore, rfl⟩ := h
    unfold applyWhere
    split
    · rename_i hmatch
      rw [UrlRepository.matches_idFilter, decide_eq_true_iff] at hmatch
      obtain ⟨hmem, hid⟩ := lookup_eq_some_iff.1 hold
      cases List.inj_on_of_nodup_map s.urls.nodup_id hbefore hmem (hmatch.trans hid.symm)
      rcases buildOps_key hbuild with ⟨halias, hdomain⟩ | hchecked
      · exact .inl ⟨old, hmem, hdomain.symm, halias.symm⟩
      · exact .inr hchecked
    · exact .inl ⟨before, hbefore, rfl, rfl⟩

theorem hasKey_bulkMoveDomain {env : UpdateEnv} {ids : List ObjectId} {domain : Option String}
    {ownerId : ObjectId} {now : Int} {row : UrlRow}
    (h : row ∈ (bulkMoveDomain (env.onStores cfg s) edge ids domain ownerId now s).2.urls.docs) :
    HasKey s.urls row.domain row.linkAlias ∨
      (env.onStores cfg s).KeyFree row.domain row.linkAlias := by
  let target := targetDomain (env.onStores cfg s) domain
  let batch := load s.urls ids ownerId "Cannot modify a blocked URL"
  have hfold : MovedTo target s.urls (batch.pending.foldl
        (moveItem (env.onStores cfg s) target ownerId now) { batch, urls := s.urls }).urls ∧
      ∀ row ∈ (batch.pending.foldl (moveItem (env.onStores cfg s) target ownerId now)
        { batch, urls := s.urls }).urls.docs, HasKey s.urls row.domain row.linkAlias ∨
          (env.onStores cfg s).KeyFree row.domain row.linkAlias := by
    refine List.foldlRecOn (motive := fun m : MoveState => MovedTo target s.urls m.urls ∧
      ∀ row ∈ m.urls.docs, HasKey s.urls row.domain row.linkAlias ∨
        (env.onStores cfg s).KeyFree row.domain row.linkAlias) _ _
      ⟨.refl _, fun row hrow => .inl ⟨row, hrow, rfl, rfl⟩⟩ fun m ⟨hmoved, hkeys⟩ doc hdoc => ?_
    refine ⟨hmoved.trans (movedTo_moveItem m doc), ?_⟩
    rcases moveItem_cases m doc with ⟨hurls, -⟩ | ⟨hchecked, hwrite, -⟩
    · rw [hurls]
      exact hkeys
    · intro row hrow
      rw [docs_updateManyUnique hwrite, List.mem_map] at hrow
      obtain ⟨before, hbefore, rfl⟩ := hrow
      unfold applyWhere
      split
      · -- The item is a link of the batch, under the alias it began with.
        rename_i hmatch
        simp only [UrlRepository.matches_idsAndOwnerFilter, List.mem_singleton, Bool.and_eq_true,
          decide_eq_true_eq] at hmatch
        obtain ⟨start, hstart, rfl, -⟩ := mem_pending_load.1 hdoc
        obtain ⟨first, hfirst, -, halias, -⟩ :=
          hmoved.lookup_left (lookup_eq_some_iff.2 ⟨hbefore, hmatch.1⟩)
        cases Option.some.inj (hstart.symm.trans hfirst)
        have hkey : ((moveOps target now).toUpdate.apply before).linkAlias = start.linkAlias :=
          halias
        exact .inr (hkey ▸ hchecked)
      · exact hkeys before hbefore
  exact hfold.2 row h

namespace LinkChange

/-- After an operation a v2 link has a key that some link had, or one that the operation gave. -/
theorem hasKey_run (change : LinkChange cfg) {row : UrlRow}
    (h : row ∈ (change.run edge s).urls.docs) :
    HasKey s.urls row.domain row.linkAlias ∨ change.GivesKey s row.domain row.linkAlias := by
  cases change with
  | create => exact hasKey_create h
  | update => exact hasKey_update h
  | bulkMoveDomain => exact hasKey_bulkMoveDomain h
  | shorten env request =>
    have hurls : (LegacyShortener.shortenUrl env request s).2.urls = s.urls := by
      obtain hsame | ⟨_, _, -, -, hafter⟩ := @LegacyShortener.shortenUrl_cases cfg s env request
      · rw [hsame]
      · rw [hafter]
    exact .inl ⟨row, hurls ▸ h, rfl, rfl⟩
  | emoji env request =>
    have hurls : (LegacyShortener.emoji env request s).2.urls = s.urls := by
      obtain hsame | ⟨_, _, -, -, hafter⟩ := @LegacyShortener.emoji_cases cfg s env request
      · rw [hsame]
      · rw [hafter]
    exact .inl ⟨row, hurls ▸ h, rfl, rfl⟩

/-- Only `POST /` adds to `urls`. -/
theorem legacy_run (change : LinkChange cfg) {row : LegacyUrlRow}
    (h : row ∈ (change.run edge s).legacy.docs) :
    row ∈ s.legacy.docs ∨ change.GivesCode s row.code := by
  cases change with
  | create env request ownerId clientIp domain now =>
    have hlegacy : (UrlService.create (env.onStores cfg s) edge request ownerId clientIp domain now
        s).2.legacy = s.legacy := by
      obtain ⟨hsame, -⟩ | ⟨_, _, -, -, hcreate⟩ :=
        @create_cases (env.onStores cfg s) request ownerId clientIp domain now s edge
      · rw [hsame]
      · rw [hcreate]
    exact .inl (hlegacy ▸ h)
  | update env urlId request ownerId clientIp now =>
    rw [run, legacy_update.1] at h
    exact .inl h
  | bulkMoveDomain => exact .inl h
  | shorten env request =>
    obtain hsame | ⟨new, legacy, hbuild, hinsert, hafter⟩ :=
      @LegacyShortener.shortenUrl_cases cfg s env request
    · rw [run, hsame] at h
      exact .inl h
    · obtain ⟨-, -, hdocs⟩ := insertOne_eq_some hinsert
      rw [run, hafter, hdocs, List.mem_append, List.mem_singleton] at h
      rcases h with h | rfl
      · exact .inl h
      · exact .inr (LegacyShortener.buildShorten_ok hbuild)
  | emoji env request =>
    have hlegacy : (LegacyShortener.emoji env request s).2.legacy = s.legacy := by
      obtain hsame | ⟨_, _, -, -, hafter⟩ := @LegacyShortener.emoji_cases cfg s env request
      · rw [hsame]
      · rw [hafter]
    exact .inl (hlegacy ▸ h)

end LinkChange

end

end Spoo
