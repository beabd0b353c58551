import Mathlib.Data.Fintype.Basic
import Spoo.Lib.References
import Spoo.Proofs.LinkChanges
import Spoo.Services.TagCalls

/-!
# The tags that links refer to

A tag is looked up in one move and put onto a link in a later one, and a tag that is deleted leaves the
links in one move and the registry in a later one.
-/

namespace Spoo

open Agents Fallible Mongo Mongo.Collection References

variable {ι : Type}

/-- Every tag on a link is in the registry of the owner of the link. -/
def NoDanglingTags (s : TaggedWorld) : Prop :=
  ∀ row ∈ s.stores.urls.docs, ∀ tagId ∈ row.tagIds,
    (TagRepository.findByIdAndOwner s.tags row.ownerId tagId).isSome = true

instance (s : TaggedWorld) : Decidable (NoDanglingTags s) :=
  inferInstanceAs (Decidable (∀ row ∈ s.stores.urls.docs, ∀ _ ∈ row.tagIds, _))

/-- The call has taken the tag off the links, and not yet out of the registry. -/
def TagCallPhase.withdraws (phase : TagCallPhase) (tag : ObjectId × ObjectId) : Bool :=
  match phase with
  | .tag (.removing ownerId tagId _) => tag = (ownerId, tagId)
  | _ => false

/-- The tags that the next move of a call puts onto links, each with the owner of the link. -/
def TagCallPhase.adds (phase : TagCallPhase) (s : TaggedWorld) : List (ObjectId × ObjectId) :=
  match phase with
  | .inserting row =>
    if (UrlRepository.insert s.stores.urls row).isSome then row.tagIds.map (row.ownerId, ·) else []
  | .writing urlId _ ops =>
    if (UrlRepository.update s.stores.urls urlId ops.toUpdate).isSome then
      (s.stores.urls.find (UrlRepository.idFilter urlId).Matches).flatMap fun row =>
        (ops.tagIds.getD []).map (row.ownerId, ·)
    else []
  | .retagging _ changed add _ ownerId _ =>
    (s.stores.urls.find (UrlRepository.idsAndOwnerFilter (changed.map (·.id)) ownerId).Matches).flatMap
      fun row => add.map (row.ownerId, ·)
  | _ => []

/-- The next move looks tags up in the registry. -/
def TagCallPhase.looks (phase : TagCallPhase) : Bool :=
  match phase with
  | .resolving .. | .deciding .. | .vouching .. => true
  | _ => false

/-- The tags that a call has looked up and means to put onto links, each with the owner of the link. -/
def TagCallPhase.vouches (phase : TagCallPhase) : List (ObjectId × ObjectId) :=
  match phase with
  | .inserting row => row.tagIds.map (row.ownerId, ·)
  | .writing _ existing ops => (ops.tagIds.getD []).map (existing.ownerId, ·)
  | .loading _ add _ ownerId => add.map (ownerId, ·)
  | .retagging _ _ add _ ownerId _ => add.map (ownerId, ·)
  | _ => []

/-- The tags of an owner, as references from the owner's links. -/
def tagReferences : Registry TagCallPhase TaggedWorld (ObjectId × ObjectId) where
  uses s tag := ∃ row ∈ s.stores.urls.docs, row.ownerId = tag.1 ∧ tag.2 ∈ row.tagIds
  registered s tag := (TagRepository.findByIdAndOwner s.tags tag.1 tag.2).isSome = true
  adds := TagCallPhase.adds
  withdraws := TagCallPhase.withdraws
  looks := TagCallPhase.looks
  vouches := TagCallPhase.vouches

/-- The calls, with the tags that the others have taken out of the registry since each looked its tags
up. -/
abbrev TagPool (ι : Type) : Type := Pool ι TagCallPhase (TaggedWorld × Unseen ι (ObjectId × ObjectId))

/-- One move, with the history. -/
abbrev TagPool.step [DecidableEq ι] (lib : TagLib) (cfg : AliasConfig) :
    TagPool ι → ι × TagCallAnswer → TagPool ι :=
  Pool.step (recorded tagReferences.removals (TagCallPhase.move lib cfg))

instance [Fintype ι] (pool : TagPool ι) (event : ι × TagCallAnswer) :
    Decidable (tagReferences.AddsStanding pool event) :=
  inferInstanceAs (Decidable (∀ tag ∈ TagCallPhase.adds _ pool.shared.1, (pool.shared.2 event.1 tag = true →
    (TagRepository.findByIdAndOwner pool.shared.1.tags tag.1 tag.2).isSome = true) ∧
      ∀ j, (pool.agents j).withdraws tag = false))

/-- A call that has not made a move yet. -/
def TagCallPhase.Starts (phase : TagCallPhase) : Prop :=
  match phase with
  | .tag (.counting _) => True
  | .tag (.finding _ _) => True
  | .creating _ _ _ _ => True
  | .finding _ _ _ _ => True
  | .vouching _ _ _ _ => True
  | _ => False

theorem TagCallPhase.Starts.vouches {phase : TagCallPhase} (h : phase.Starts) : phase.vouches = [] := by
  cases phase <;> first | rfl | exact h.elim

theorem TagCallPhase.Starts.withdraws {phase : TagCallPhase} (h : phase.Starts)
    (tag : ObjectId × ObjectId) : phase.withdraws tag = false := by
  cases phase with
  | tag phase => cases phase <;> first | rfl | exact h.elim
  | _ => rfl

theorem TagRepository.isSome_findByIdAndOwner {tags : TagStore} {ownerId tagId : ObjectId} :
    (findByIdAndOwner tags ownerId tagId).isSome = true ↔
      ∃ doc ∈ tags.docs, doc.id = tagId ∧ doc.ownerId = ownerId := by
  simp [findByIdAndOwner, findOne]

/-! ## A call alone -/

/-- A call that moves alone, without waiting. -/
def TagCallPhase.alone (lib : TagLib) (cfg : AliasConfig) (env : CreateEnv)
    (stands : TagCallPhase × TaggedWorld) : TagCallPhase × TaggedWorld :=
  TagCallPhase.go lib cfg env stands.1 stands.2

section

variable (lib : TagLib) (cfg : AliasConfig) (env : CreateEnv) (s : TaggedWorld)

/-- `bulk_tag` by its stages. -/
def BulkUrlService.bulkTagByStages (ids add remove : List ObjectId) (ownerId : ObjectId) :
    Except AppError BulkBatch × Stores :=
  match vouchTags s.tags add ownerId with
  | .error e => (.error e, s.stores)
  | .ok () =>
    let judged := judgeTags add remove (load s.stores.urls ids ownerId "Cannot modify a blocked URL")
    if judged.2 = [] then (.ok judged.1, s.stores)
    else match UrlRepository.updateByIdsAndOwner s.stores.urls (judged.2.map (·.id)) ownerId
        (retag add remove s.clock).toUpdate with
      | some urls => (.ok (judged.1.okAll judged.2), { s.stores with urls })
      | none => (.ok (judged.1.rejectAll judged.2), s.stores)

theorem BulkUrlService.bulkTagByStages_eq (ids add remove : List ObjectId) (ownerId : ObjectId) :
    bulkTagByStages s ids add remove ownerId =
      bulkTag (some fun owner tagIds => TagService.assertOwned s.tags owner tagIds "add") ids add remove
        ownerId s.clock s.stores := rfl

/-- The moves of `bulk_tag` are `bulk_tag`. -/
theorem BulkUrlService.alone_bulkTag (ids add remove : List ObjectId) (ownerId : ObjectId) :
    (TagCallPhase.alone lib cfg env)^[3] (.vouching ids add remove ownerId, s) =
      let result := bulkTag (some fun owner tagIds => TagService.assertOwned s.tags owner tagIds "add")
        ids add remove ownerId s.clock s.stores
      (.done (.retagged result.1), { s with stores := result.2 }) := by
  simp only [Function.iterate_succ, Function.iterate_zero, Function.comp_apply, id_eq,
    TagCallPhase.alone, TagCallPhase.go, ← bulkTagByStages_eq, bulkTagByStages]
  cases vouchTags s.tags add ownerId with
  | error e => rfl
  | ok =>
    simp only
    split_ifs with hchanged
    · rfl
    · simp only
      cases UrlRepository.updateByIdsAndOwner s.stores.urls _ ownerId
        (retag add remove s.clock).toUpdate <;> rfl

/-- The moves of `update` answer as `update` does, and leave the links that it leaves. -/
theorem UrlService.alone_update (edge : EdgeConfig) (urlId : ObjectId) (request : UpdateUrlRequest)
    (ownerId : ObjectId) (clientIp : Option String) :
    let updated := UrlService.update ((env.toUpdateEnv.onStores cfg s.stores).onTags s.tags) edge urlId
      request ownerId clientIp s.clock s.stores
    ∃ result, updated.1 = some result ∧
      (TagCallPhase.alone lib cfg env)^[3] (.finding urlId request ownerId clientIp, s) =
        (.done (.updated result), s.withUrls updated.2.urls) := by
  simp only [Function.iterate_succ, Function.iterate_zero, Function.comp_apply, id_eq,
    TagCallPhase.alone]
  cases hload : loadOwned (UrlRepository.findById s.stores.urls urlId) ownerId
      "Cannot modify a blocked URL" with
  | error e =>
    refine ⟨.error (.app e), ?_⟩
    simp only [update_refused hload, TagCallPhase.go, hload, true_and]
    rfl
  | ok existing =>
    cases hbuild : buildOps ((env.toUpdateEnv.onStores cfg s.stores).onTags s.tags) s.clock request
        clientIp existing with
    | error e =>
      refine ⟨.error (.app e), ?_⟩
      simp only [update_rejected hload hbuild, TagCallPhase.go, hload, hbuild, true_and]
      rfl
    | ok ops =>
      by_cases hops : ops = {}
      · subst hops
        refine ⟨.ok existing, ?_⟩
        simp only [update_unchanged hload hbuild, TagCallPhase.go, hload, hbuild, if_true, true_and]
        rfl
      · cases hwrite : UrlRepository.update s.stores.urls urlId
            ({ ops with updatedAt := some s.clock } : UrlOps).toUpdate with
        | none =>
          refine ⟨.error .duplicateKey, ?_⟩
          simp only [update_duplicate hload hbuild hops hwrite, TagCallPhase.go, hload, hbuild, hops,
            if_false, hwrite, true_and]
          rfl
        | some urls =>
          have hwritten : (update _ edge urlId request ownerId clientIp s.clock s.stores).1 = _ ∧
              _ = urls := update_written hload hbuild hops hwrite
          obtain ⟨houtcome, hurls⟩ := hwritten
          refine ⟨_, houtcome, ?_⟩
          simp only [TagCallPhase.go, hload, hbuild, hops, if_false, hwrite, hurls]

/-- The moves of `create` leave the links that `create` leaves. -/
theorem UrlService.alone_create (edge : EdgeConfig) (request : CreateUrlRequest)
    (ownerId : Option ObjectId) (clientIp : String) (domain : Option String) :
    ((TagCallPhase.alone lib cfg env)^[3] (.creating request ownerId clientIp domain, s)).2 =
      s.withUrls (UrlService.create { env.onStores cfg s.stores with
        resolveNewTagIds := UrlService.resolveTagIds s.tags } edge request ownerId clientIp domain
        s.clock s.stores).2.urls := by
  simp only [Function.iterate_succ, Function.iterate_zero, Function.comp_apply, id_eq,
    TagCallPhase.alone, create, buildRow, bind, Except.bind]
  cases hcheck : checkRequest (env.onStores cfg s.stores).toUpdateEnv request
      (ownerId.getD anonymousOwnerId) s.clock with
  | error e =>
    simp only [TagCallPhase.go, hcheck, bind, Except.bind]
    rfl
  | ok metaTags =>
    cases halias : chooseAlias (env.onStores cfg s.stores) request
        (targetDomain (env.onStores cfg s.stores).toUpdateEnv domain) s.stores with
    | error e =>
      have hsame : chooseAlias { env.onStores cfg s.stores with
          resolveNewTagIds := resolveTagIds s.tags } request
          (targetDomain (env.onStores cfg s.stores).toUpdateEnv domain) s.stores = .error e := halias
      simp only [TagCallPhase.go, hcheck, halias, hsame, bind, Except.bind]
      rfl
    | ok linkAlias =>
      have hsame : chooseAlias { env.onStores cfg s.stores with
          resolveNewTagIds := resolveTagIds s.tags } request
          (targetDomain (env.onStores cfg s.stores).toUpdateEnv domain) s.stores = .ok linkAlias := halias
      cases hresolve : resolveTagIds s.tags request.tagIds ownerId with
      | error e =>
        simp only [TagCallPhase.go, hcheck, halias, hsame, hresolve, bind, Except.bind]
        rfl
      | ok tagIds =>
        simp only [TagCallPhase.go, hcheck, halias, hsame, hresolve, bind, Except.bind]
        have hrow : newRow { env.onStores cfg s.stores with resolveNewTagIds := resolveTagIds s.tags }
            request ownerId clientIp linkAlias
            (targetDomain (env.onStores cfg s.stores).toUpdateEnv domain) tagIds metaTags =
            newRow env request ownerId clientIp linkAlias
              (targetDomain (env.onStores cfg s.stores).toUpdateEnv domain) tagIds metaTags := rfl
        simp only [hrow]
        cases UrlRepository.insert s.stores.urls (newRow env request ownerId clientIp linkAlias
          (targetDomain (env.onStores cfg s.stores).toUpdateEnv domain) tagIds metaTags) <;> rfl

end

/-- A link after a tag of an owner is taken off. -/
theorem UrlRepository.exists_of_pullTagIdByOwner {urls : UrlStore} {ownerId tagId : ObjectId}
    {row : UrlRow} (hrow : row ∈ (pullTagIdByOwner urls ownerId tagId).2.docs) :
    ∃ old ∈ urls.docs, old.ownerId = row.ownerId ∧ (∀ other ∈ row.tagIds, other ∈ old.tagIds) ∧
      (row.ownerId = ownerId → tagId ∉ row.tagIds) := by
  obtain ⟨old, hold, rfl⟩ := mem_updateMany.1 hrow
  refine ⟨old, hold, ?_⟩
  by_cases hmatches : (ownerTagFilter ownerId tagId).Matches old = true
  · rw [applyWhere_of_matches _ hmatches]
    refine ⟨rfl, fun other hother => (List.mem_filter.1 hother).1, fun _ => ?_⟩
    simp [pullTagId]
  · rw [Bool.not_eq_true] at hmatches
    rw [applyWhere_of_not_matches _ hmatches]
    refine ⟨rfl, fun _ hother => hother, fun howner htag => ?_⟩
    simp [howner, htag] at hmatches

/-! ## What an update makes of the tags -/

section

variable {env : UpdateEnv} {now : Int} {request : UpdateUrlRequest} {clientIp : Option String}
  {existing : UrlV2Doc} {ops ops' : UrlOps}

/-- The handlers around that of the tags neither read nor write them. -/
theorem handler_keeps_tags {handler : Handler}
    (hmem : handler ∈ fieldHandlers.take 12 ++ fieldHandlers.drop 13)
    (h : handler env now request existing ops = .ok ops') : ops'.tagIds = ops.tagIds := by
  have hblind : handler env now { request with tagIds := none } existing ops = .ok ops' := by
    rw [← h]
    simp only [fieldHandlers, List.take_succ_cons, List.take_zero, List.drop_succ_cons,
      List.drop_zero, List.cons_append, List.nil_append, List.mem_cons, List.not_mem_nil,
      or_false] at hmem
    rcases hmem with rfl | rfl | rfl | rfl | rfl | rfl | rfl | rfl | rfl | rfl | rfl | rfl | rfl |
      rfl | rfl <;> rfl
  cases handler_writes (mem_fieldHandlers_of_around hmem) hblind with
  | tagIds _ named => cases named
  | _ => rfl

/-- The tags that an update writes are those its request resolves to. -/
theorem tags_buildOps (h : buildOps env now request clientIp existing = .ok ops) :
    ∀ tagIds ∈ ops.tagIds, ∃ requested, request.tagIds = some requested ∧
      env.resolveTagIds requested existing.ownerId = .ok tagIds := by
  have hsplit : fieldHandlers =
      fieldHandlers.take 12 ++ handleTagIds :: fieldHandlers.drop 13 := rfl
  obtain ⟨before, after, htags, hnew, hkept⟩ := buildOps_around (g := UrlOps.tagIds) hsplit
    (fun _ _ _ _ => rfl) (fun handler hmem _ _ hrun => handler_keeps_tags hmem hrun) h
  intro tagIds hmem
  have hwritten : after.tagIds = some tagIds := hkept.symm.trans hmem
  have hnone : before.tagIds = none := hnew
  unfold handleTagIds at htags
  split at htags
  · cases htags
    rw [hnone] at hwritten
    cases hwritten
  · rename_i requested hrequest
    obtain ⟨resolved, hresolve, htags⟩ := bind_eq_ok.1 htags
    split at htags
    · cases htags
      cases hwritten
      exact ⟨requested, hrequest, hresolve⟩
    · cases htags
      rw [hnone] at hwritten
      cases hwritten

end

/-! ## What the check finds -/

theorem TagService.registered_of_assertOwned {tags : TagStore} {ownerId : ObjectId}
    {tagIds : List ObjectId} {field : String} (h : assertOwned tags ownerId tagIds field = .ok ()) :
    ∀ tagId ∈ tagIds, (TagRepository.findByIdAndOwner tags ownerId tagId).isSome = true := by
  unfold assertOwned at h
  dsimp only at h
  split at h
  · rename_i hmissing
    intro tagId htag
    have hfound : tagId ∈ (TagRepository.findByIdsAndOwner tags ownerId tagIds).map (·.id) := by
      simpa using List.filter_eq_nil_iff.1 hmissing tagId htag
    obtain ⟨doc, hdoc, rfl⟩ := List.mem_map.1 hfound
    obtain ⟨hmem, hmatches⟩ := List.mem_filter.1 hdoc
    simp only [Bool.and_eq_true, decide_eq_true_eq] at hmatches
    exact TagRepository.isSome_findByIdAndOwner.2 ⟨doc, hmem, rfl, hmatches.2⟩
  · cases h

theorem UrlService.registered_of_resolveTagIds {tags : TagStore} {requested : Option (List String)}
    {ownerId : Option ObjectId} {tagIds : List ObjectId}
    (h : resolveTagIds tags requested ownerId = .ok tagIds) :
    ∀ tagId ∈ tagIds,
      (TagRepository.findByIdAndOwner tags (ownerId.getD anonymousOwnerId) tagId).isSome = true := by
  unfold resolveTagIds at h
  dsimp only at h
  split at h
  · cases h
    exact fun _ htag => absurd htag List.not_mem_nil
  · split at h
    · cases h
    · rename_i owner howner
      split at h
      · cases h
      · obtain ⟨⟨⟩, howned, h⟩ := bind_eq_ok.1 h
        cases h
        rw [(Option.filter_eq_some_iff.1 howner).1]
        exact TagService.registered_of_assertOwned howned

theorem BulkUrlService.registered_of_vouchTags {tags : TagStore} {add : List ObjectId} {ownerId : ObjectId}
    (h : vouchTags tags add ownerId = .ok ()) :
    ∀ tagId ∈ add, (TagRepository.findByIdAndOwner tags ownerId tagId).isSome = true := by
  unfold vouchTags at h
  split at h
  · rename_i hnone
    exact fun _ htag => absurd (hnone ▸ htag) List.not_mem_nil
  · exact TagService.registered_of_assertOwned h

/-! ## Whose link is written -/

/-- The link that a call is about to write has the owner that it was read with. -/
def TagCallPhase.HoldsOwner (phase : TagCallPhase) (s : TaggedWorld) : Prop :=
  match phase with
  | .deciding urlId _ _ existing =>
    (s.stores.urls.lookup urlId).map (·.ownerId) = some existing.ownerId
  | .writing urlId existing _ => (s.stores.urls.lookup urlId).map (·.ownerId) = some existing.ownerId
  | _ => True

/-- Links stay with their owners. -/
def OwnersKept (s s' : TaggedWorld) : Prop :=
  ∀ urlId ownerId, (s.stores.urls.lookup urlId).map (·.ownerId) = some ownerId →
    (s'.stores.urls.lookup urlId).map (·.ownerId) = some ownerId

theorem OwnersKept.holds {phase : TagCallPhase} {s s' : TaggedWorld} (h : OwnersKept s s')
    (hholds : phase.HoldsOwner s) : phase.HoldsOwner s' := by
  cases phase with
  | deciding => exact h _ _ hholds
  | writing => exact h _ _ hholds
  | _ => exact trivial

/-- An update of links leaves them with their owners. -/
theorem ownersKept_updated {s s' : TaggedWorld} {q : UrlRow → Bool} {u : Update UrlRow}
    (hdocs : ∀ urlId, s'.stores.urls.lookup urlId = (s.stores.urls.lookup urlId).map (applyWhere q u))
    (howner : ∀ row, (u.apply row).ownerId = row.ownerId) : OwnersKept s s' := by
  intro urlId ownerId h
  rw [hdocs, Option.map_map]
  rw [← h]
  refine congrArg (Option.map · _) (funext fun row => ?_)
  exact field_applyWhere (·.ownerId) q u howner row

/-- What a call adds, it has looked up for the owner of the link. -/
theorem TagCallPhase.HoldsOwner.adds_subset {phase : TagCallPhase} {s : TaggedWorld}
    (h : phase.HoldsOwner s) : ∀ tag ∈ phase.adds s, tag ∈ phase.vouches := by
  intro tag htag
  cases phase with
  | inserting row =>
    simp only [adds] at htag
    split_ifs at htag
    · exact htag
    · cases htag
  | writing urlId existing ops =>
    simp only [adds] at htag
    split_ifs at htag
    · obtain ⟨row, hrow, htag⟩ := List.mem_flatMap.1 htag
      obtain ⟨hmem, hmatches⟩ := List.mem_filter.1 hrow
      rw [UrlRepository.matches_idFilter, decide_eq_true_iff] at hmatches
      have hfound : s.stores.urls.lookup urlId = some row := lookup_eq_some_iff.2 ⟨hmem, hmatches⟩
      have howner : row.ownerId = existing.ownerId := by simpa [HoldsOwner, hfound] using h
      rw [howner] at htag
      exact htag
    · cases htag
  | retagging batch changed add remove ownerId now =>
    obtain ⟨row, hrow, htag⟩ := List.mem_flatMap.1 htag
    have hmatches := (List.mem_filter.1 hrow).2
    simp only [UrlRepository.matches_idsAndOwnerFilter, Bool.and_eq_true, decide_eq_true_eq] at hmatches
    rw [hmatches.2] at htag
    exact htag
  | _ => cases htag

theorem TagCallPhase.Starts.holdsOwner {phase : TagCallPhase} (h : phase.Starts) {s : TaggedWorld} :
    phase.HoldsOwner s := by
  cases phase <;> first | exact trivial | exact h.elim

/-! ## What one move does to tags -/

section

variable {phase next : TagCallPhase} {s s' : TaggedWorld}

/-- A move that leaves links and registry alone. -/
theorem tagMoved_stays (hurls : s'.stores.urls = s.stores.urls) (htags : s'.tags = s.tags)
    (hnext : ∀ tag, next.withdraws tag = false)
    (hlooked : phase.looks = true → ∀ tag ∈ next.vouches, tagReferences.registered s tag)
    (hvouches : phase.looks = false → ∀ tag ∈ next.vouches,
      tag ∈ phase.vouches ∧ phase.withdraws tag = false) : tagReferences.Moved phase s (next, s') where
  uses tag huses := by
    left
    simpa only [tagReferences, hurls] using huses
  registered tag hregistered := by
    right
    simpa only [tagReferences, htags] using hregistered
  withdraws tag hwithdraws := by simp [tagReferences, hnext] at hwithdraws
  looked hlooks tag htag := by
    have hregistered := hlooked hlooks tag htag
    simpa only [tagReferences, htags] using hregistered
  vouches := hvouches

/-- After it the call vouches for nothing. -/
theorem tagMoved_rests (hurls : s'.stores.urls = s.stores.urls) (htags : s'.tags = s.tags)
    (hnext : ∀ tag, next.withdraws tag = false) (hnone : next.vouches = []) :
    tagReferences.Moved phase s (next, s') :=
  tagMoved_stays hurls htags hnext (fun _ _ htag => absurd (hnone ▸ htag) List.not_mem_nil)
    fun _ _ htag => absurd (hnone ▸ htag) List.not_mem_nil

/-- It looks up what the call vouches for after it. -/
theorem tagMoved_looks (hlooks : phase.looks = true) (hnext : ∀ tag, next.withdraws tag = false)
    (hfound : ∀ tag ∈ next.vouches, tagReferences.registered s tag) :
    tagReferences.Moved phase s (next, s) :=
  tagMoved_stays rfl rfl hnext (fun _ => hfound)
    fun hblind => absurd (hlooks.symm.trans hblind) Bool.noConfusion

/-- A move that writes links: what is on a link now was on a link of the owner before, or is added. -/
theorem tagMoved_writes {urls : UrlStore} (hnext : ∀ tag, next.withdraws tag = false)
    (hnone : next.vouches = []) (hrows : ∀ row ∈ urls.docs, ∀ tagId ∈ row.tagIds,
      (∃ old ∈ s.stores.urls.docs, old.ownerId = row.ownerId ∧ tagId ∈ old.tagIds) ∨
        (row.ownerId, tagId) ∈ phase.adds s) :
    tagReferences.Moved phase s (next, s.withUrls urls) where
  uses := by
    rintro ⟨ownerId, tagId⟩ ⟨row, hrow, rfl, htag⟩
    exact hrows row hrow tagId htag
  registered tag hregistered := .inr hregistered
  withdraws tag hwithdraws := by simp [tagReferences, hnext] at hwithdraws
  looked _ tag htag := by simp [tagReferences, hnone] at htag
  vouches _ tag htag := by simp [tagReferences, hnone] at htag

/-- The rows of an update: those that did not pass, and those it was applied to. -/
theorem tags_of_updateManyUnique {urls urls' : UrlStore} {q : UrlRow → Bool} {u : Update UrlRow}
    (h : urls.updateManyUnique q u = some urls') {row : UrlRow} (hrow : row ∈ urls'.docs) :
    row ∈ urls.docs ∨ ∃ old ∈ urls.find q, row = u.apply old := by
  rw [docs_updateManyUnique h, List.mem_map] at hrow
  obtain ⟨old, hold, rfl⟩ := hrow
  unfold applyWhere
  split_ifs with hpasses
  · exact .inr ⟨old, List.mem_filter.2 ⟨hold, hpasses⟩, rfl⟩
  · exact .inl hold

/-- One that updates links, and leaves them with their owners. -/
theorem tagMoved_updates {urls : UrlStore} {q : UrlRow → Bool} {u : Update UrlRow}
    (hupdate : s.stores.urls.updateManyUnique q u = some urls) (hnext : ∀ tag, next.withdraws tag = false)
    (hnone : next.vouches = []) (howner : ∀ old, (u.apply old).ownerId = old.ownerId)
    (hrows : ∀ old ∈ s.stores.urls.find q, ∀ tagId ∈ (u.apply old).tagIds,
      tagId ∈ old.tagIds ∨ (old.ownerId, tagId) ∈ phase.adds s) :
    tagReferences.Moved phase s (next, s.withUrls urls) := by
  refine tagMoved_writes hnext hnone fun row hrow tagId htag => ?_
  rcases tags_of_updateManyUnique hupdate hrow with hold | ⟨old, hold, rfl⟩
  · exact .inl ⟨row, hold, rfl, htag⟩
  · rw [howner]
    exact (hrows old hold tagId htag).imp_left fun hkept => ⟨old, (List.mem_filter.1 hold).1, rfl, hkept⟩

end

/-- The registry and the links under `TagService`. -/
theorem tagMoved_service (lib : TagLib) (phase : TagPhase) (s : TaggedWorld) :
    tagReferences.Moved (.tag phase) s
      (.tag (TagService.move lib phase s.registry).1,
        s.withRegistry (TagService.move lib phase s.registry).2) := by
  cases phase with
  | counting request =>
    simp only [TagService.move]
    split_ifs
    · exact tagMoved_rests rfl rfl (fun _ => rfl) rfl
    · cases request.color <;> exact tagMoved_rests rfl rfl (fun _ => rfl) rfl
  | listing request => exact tagMoved_rests rfl rfl (fun _ => rfl) rfl
  | inserting request color =>
    cases hinsert : TagRepository.insert s.registry.tags (TagService.tagDoc lib request color s.registry)
      with
    | none =>
      simp only [TagService.move, hinsert]
      exact tagMoved_rests rfl rfl (fun _ => rfl) rfl
    | some tags =>
      simp only [TagService.move, hinsert]
      obtain ⟨-, -, hdocs⟩ := insertOne_eq_some hinsert
      refine ⟨fun tag huses => .inl huses, fun tag hregistered => .inr ?_,
        (fun _ hwithdraws => by cases hwithdraws), (fun hlooks => by cases hlooks), fun _ _ htag => by cases htag⟩
      obtain ⟨doc, hdoc, hid⟩ := TagRepository.isSome_findByIdAndOwner.1 hregistered
      refine TagRepository.isSome_findByIdAndOwner.2 ⟨doc, ?_, hid⟩
      have hold : doc ∈ tags.docs := hdocs ▸ List.mem_append_left _ hdoc
      exact hold
  | finding ownerId tagId =>
    simp only [TagService.move]
    split_ifs <;> exact tagMoved_rests rfl rfl (fun _ => rfl) rfl
  | pulling ownerId tagId =>
    refine ⟨?_, fun tag hregistered => .inr hregistered, ?_, (fun hlooks => by cases hlooks),
      fun _ _ htag => by cases htag⟩
    · rintro ⟨owner, tag⟩ ⟨row, hrow, rfl, htag⟩
      obtain ⟨old, hold, howner, hsub, -⟩ := UrlRepository.exists_of_pullTagIdByOwner hrow
      exact .inl ⟨old, hold, howner, hsub _ htag⟩
    · rintro tag hwithdraws ⟨row, hrow, howner, htag⟩
      have htagged : tag = (ownerId, tagId) := of_decide_eq_true hwithdraws
      subst htagged
      obtain ⟨-, -, -, -, hgone⟩ := UrlRepository.exists_of_pullTagIdByOwner hrow
      exact hgone howner htag
  | removing ownerId tagId linksUpdated =>
    refine ⟨fun tag huses => .inl huses, fun tag hregistered => ?_, (fun _ hwithdraws => by cases hwithdraws),
      (fun hlooks => by cases hlooks), fun _ _ htag => by cases htag⟩
    obtain ⟨doc, hdoc, hid, howner⟩ := TagRepository.isSome_findByIdAndOwner.1 hregistered
    by_cases hsame : tag = (ownerId, tagId)
    · exact .inl (by simpa [tagReferences, TagCallPhase.withdraws] using hsame)
    · refine .inr (TagRepository.isSome_findByIdAndOwner.2 ⟨doc, ?_, hid, howner⟩)
      refine List.mem_filter.2 ⟨hdoc, ?_⟩
      have hother : ¬ (doc.id = tagId ∧ doc.ownerId = ownerId) := by
        rintro ⟨rfl, rfl⟩
        exact hsame (Prod.ext howner.symm hid.symm)
      simpa only [Bool.not_eq_true', Bool.and_eq_false_iff, decide_eq_false_iff_not, not_and_or]
        using hother
  | done outcome => exact tagMoved_rests rfl rfl (fun _ => rfl) rfl

theorem tagMoved_go (lib : TagLib) (cfg : AliasConfig) (env : CreateEnv) (phase : TagCallPhase)
    (s : TaggedWorld) : tagReferences.Moved phase s (TagCallPhase.go lib cfg env phase s) := by
  cases phase with
  | tag phase => exact tagMoved_service lib phase s
  | creating request ownerId clientIp domain =>
    simp only [TagCallPhase.go]
    split <;> exact tagMoved_rests rfl rfl (fun _ => rfl) rfl
  | resolving request ownerId clientIp linkAlias domain metaTags =>
    simp only [TagCallPhase.go]
    split
    · exact tagMoved_rests rfl rfl (fun _ => rfl) rfl
    · rename_i tagIds hresolve
      refine tagMoved_looks rfl (fun _ => rfl) fun tag htag => ?_
      obtain ⟨tagId, hmem, rfl⟩ := List.mem_map.1 htag
      exact UrlService.registered_of_resolveTagIds hresolve tagId hmem
  | inserting row =>
    simp only [TagCallPhase.go]
    split
    · exact tagMoved_rests rfl rfl (fun _ => rfl) rfl
    · rename_i urls hinsert
      refine tagMoved_writes (fun _ => rfl) rfl fun row' hrow' tagId htag => ?_
      obtain ⟨-, -, hdocs⟩ := insertOne_eq_some hinsert
      rw [hdocs, List.mem_append, List.mem_singleton] at hrow'
      rcases hrow' with hold | rfl
      · exact .inl ⟨row', hold, rfl, htag⟩
      · right
        simp only [TagCallPhase.adds, hinsert, Option.isSome_some, if_true]
        exact List.mem_map_of_mem htag
  | finding urlId request ownerId clientIp =>
    simp only [TagCallPhase.go]
    split <;> exact tagMoved_rests rfl rfl (fun _ => rfl) rfl
  | deciding urlId request clientIp existing =>
    simp only [TagCallPhase.go]
    split
    · exact tagMoved_rests rfl rfl (fun _ => rfl) rfl
    · rename_i ops hbuild
      split_ifs
      · exact tagMoved_rests rfl rfl (fun _ => rfl) rfl
      · refine tagMoved_looks rfl (fun _ => rfl) fun tag htag => ?_
        obtain ⟨tagId, hmem, rfl⟩ := List.mem_map.1 htag
        cases hops : ops.tagIds with
        | none => simp [hops] at hmem
        | some tagIds =>
          have hwritten : tagId ∈ tagIds := by simpa [hops] using hmem
          obtain ⟨requested, -, hresolve⟩ := tags_buildOps hbuild tagIds hops
          exact UrlService.registered_of_resolveTagIds hresolve tagId hwritten
  | writing urlId existing ops =>
    simp only [TagCallPhase.go]
    split
    · exact tagMoved_rests rfl rfl (fun _ => rfl) rfl
    · rename_i urls hupdate
      refine tagMoved_updates hupdate (fun _ => rfl) rfl (fun _ => rfl) fun old hold tagId htag => ?_
      cases hops : ops.tagIds with
      | none => exact .inl (by simpa [UrlOps.toUpdate, hops] using htag)
      | some tagIds =>
        right
        simp only [TagCallPhase.adds, hupdate, Option.isSome_some, if_true]
        refine List.mem_flatMap.2 ⟨old, hold, List.mem_map.2 ⟨tagId, ?_, rfl⟩⟩
        simpa [UrlOps.toUpdate, hops] using htag
  | vouching ids add remove ownerId =>
    simp only [TagCallPhase.go]
    split
    · exact tagMoved_rests rfl rfl (fun _ => rfl) rfl
    · rename_i hvouched
      refine tagMoved_looks rfl (fun _ => rfl) fun tag htag => ?_
      obtain ⟨tagId, hmem, rfl⟩ := List.mem_map.1 htag
      exact BulkUrlService.registered_of_vouchTags hvouched tagId hmem
  | loading ids add remove ownerId =>
    simp only [TagCallPhase.go]
    split_ifs
    · exact tagMoved_rests rfl rfl (fun _ => rfl) rfl
    · exact tagMoved_stays rfl rfl (fun _ => rfl) (fun hlooks => by cases hlooks)
        fun _ tag htag => ⟨htag, rfl⟩
  | retagging batch changed add remove ownerId now =>
    simp only [TagCallPhase.go]
    split
    · exact tagMoved_rests rfl rfl (fun _ => rfl) rfl
    · rename_i urls hupdate
      refine tagMoved_updates hupdate (fun _ => rfl) rfl (fun _ => rfl) fun old hold tagId htag => ?_
      have hnext : tagId ∈ BulkUrlService.nextTags add remove old.tagIds := htag
      simp only [BulkUrlService.nextTags, List.mem_append, List.mem_filter] at hnext
      rcases hnext with hkept | hadded
      · exact .inl hkept.1
      · exact .inr (List.mem_flatMap.2 ⟨old, hold, List.mem_map.2 ⟨tagId, hadded.1, rfl⟩⟩)
  | done outcome => exact tagMoved_rests rfl rfl (fun _ => rfl) rfl

/-- A move leaves links with their owners, and a call that has read a link knows its owner. -/
theorem holdsOwner_go (lib : TagLib) (cfg : AliasConfig) (env : CreateEnv) (phase : TagCallPhase)
    (s : TaggedWorld) (h : phase.HoldsOwner s) :
    OwnersKept s (TagCallPhase.go lib cfg env phase s).2 ∧
      (TagCallPhase.go lib cfg env phase s).1.HoldsOwner (TagCallPhase.go lib cfg env phase s).2 := by
  have hkept : OwnersKept s s := fun _ _ howner => howner
  cases phase with
  | tag phase =>
    refine ⟨?_, trivial⟩
    cases phase with
    | pulling ownerId tagId =>
      exact ownersKept_updated (fun _ => lookup_updateMany ..) fun _ => rfl
    | counting request =>
      simp only [TagCallPhase.go, TagService.move]
      split_ifs
      · exact hkept
      · cases request.color <;> exact hkept
    | inserting request color =>
      simp only [TagCallPhase.go, TagService.move]
      split <;> exact hkept
    | finding ownerId tagId =>
      simp only [TagCallPhase.go, TagService.move]
      split_ifs <;> exact hkept
    | _ => exact hkept
  | inserting row =>
    simp only [TagCallPhase.go]
    split
    · exact ⟨hkept, trivial⟩
    · rename_i urls hinsert
      refine ⟨fun urlId ownerId howner => ?_, trivial⟩
      obtain ⟨row, hrow, rfl⟩ := Option.map_eq_some_iff.1 howner
      have hmem := lookup_eq_some_iff.1 hrow
      obtain ⟨-, -, hdocs⟩ := insertOne_eq_some hinsert
      have hstays : urls.lookup urlId = some row :=
        lookup_eq_some_iff.2 ⟨hdocs ▸ List.mem_append_left _ hmem.1, hmem.2⟩
      simp [TaggedWorld.withUrls, hstays]
  | finding urlId request ownerId clientIp =>
    simp only [TagCallPhase.go]
    split
    · exact ⟨hkept, trivial⟩
    · rename_i existing hload
      obtain ⟨row, hrow, rfl, -⟩ := UrlService.loadOwned_ok hload
      exact ⟨hkept, by simp [TagCallPhase.HoldsOwner, hrow, UrlV2Doc.fromMongo]⟩
  | deciding urlId request clientIp existing =>
    simp only [TagCallPhase.go]
    split
    · exact ⟨hkept, trivial⟩
    · split_ifs
      · exact ⟨hkept, trivial⟩
      · exact ⟨hkept, h⟩
  | writing urlId existing ops =>
    simp only [TagCallPhase.go]
    split
    · exact ⟨hkept, trivial⟩
    · rename_i urls hupdate
      exact ⟨ownersKept_updated (fun _ => lookup_updateManyUnique hupdate ..) fun _ => rfl, trivial⟩
  | retagging batch changed add remove ownerId now =>
    simp only [TagCallPhase.go]
    split
    · exact ⟨hkept, trivial⟩
    · rename_i urls hupdate
      exact ⟨ownersKept_updated (fun _ => lookup_updateManyUnique hupdate ..) fun _ => rfl, trivial⟩
  | creating request ownerId clientIp domain =>
    simp only [TagCallPhase.go]
    split <;> exact ⟨hkept, trivial⟩
  | resolving request ownerId clientIp linkAlias domain metaTags =>
    simp only [TagCallPhase.go]
    split <;> exact ⟨hkept, trivial⟩
  | vouching ids add remove ownerId =>
    simp only [TagCallPhase.go]
    split <;> exact ⟨hkept, trivial⟩
  | loading ids add remove ownerId =>
    simp only [TagCallPhase.go]
    split_ifs <;> exact ⟨hkept, trivial⟩
  | done outcome => exact ⟨hkept, trivial⟩

/-! ## Whole runs -/

variable [DecidableEq ι]

/-- No tag dangles as long as no delete of a tag that is put onto a link has taken it out of the
registry since the call has looked it up, and none has already been to the links. -/
theorem no_dangling_tags_while_standing (lib : TagLib) (cfg : AliasConfig) (pool : TagPool ι)
    (events : List (ι × TagCallAnswer)) (hstart : ∀ who, (pool.agents who).Starts)
    (h : NoDanglingTags pool.shared.1)
    (hstanding : Run.Guarded (TagPool.step lib cfg) tagReferences.AddsStanding pool events) :
    ∀ t ∈ List.scanl (TagPool.step lib cfg) pool events, NoDanglingTags t.shared.1 := by
  have hmoved (who : ι) (answer : TagCallAnswer) (phase : TagCallPhase) (s : TaggedWorld) :
      tagReferences.Moved phase s (TagCallPhase.move lib cfg who answer phase s) := by
    have hgo := tagMoved_go lib cfg answer.env phase (s.wait answer.delay)
    have hadds : tagReferences.adds phase (s.wait answer.delay) = tagReferences.adds phase s := by
      cases phase <;> rfl
    refine ⟨fun tag huses => ?_, hgo.registered, hgo.withdraws, hgo.looked, hgo.vouches⟩
    rw [← hadds]
    exact hgo.uses tag huses
  have howners (t : TagPool ι) (event : ι × TagCallAnswer)
      (ht : ∀ who, (t.agents who).HoldsOwner t.shared.1) (who : ι) :
      ((TagPool.step lib cfg t event).agents who).HoldsOwner (TagPool.step lib cfg t event).shared.1 := by
    have hwait : OwnersKept t.shared.1 (t.shared.1.wait event.2.delay) := fun _ _ howner => howner
    obtain ⟨hkept, hown⟩ := holdsOwner_go lib cfg event.2.env _ _ (hwait.holds (ht event.1))
    exact Pool.forall_agents_step (Q := fun _ phase => TagCallPhase.HoldsOwner phase _) hown
      (fun j _ => OwnersKept.holds hkept (ht j)) who
  have hintact : tagReferences.Intact pool := by
    refine ⟨?_, fun who => ⟨fun tag hwithdraws => ?_, fun tag _ hvouched => ?_⟩⟩
    · rintro ⟨ownerId, tagId⟩ ⟨row, hrow, rfl, htag⟩
      exact h row hrow tagId htag
    · simp [tagReferences, (hstart who).withdraws] at hwithdraws
    · simp [tagReferences, (hstart who).vouches] at hvouched
  intro t ht row hrow tagId htag
  exact (Registry.forall_intact howners (fun _ _ ht => (ht _).adds_subset) hmoved
    (fun who => (hstart who).holdsOwner) hintact hstanding t ht).shared (row.ownerId, tagId)
    ⟨row, hrow, rfl, htag⟩

/-- A link without tags and a tag, and a call for each of the two. -/
def linkAndTag : TagPool Bool where
  agents who := if who then .vouching [1] [3] [] 7 else .tag (.finding 7 3)
  shared := ({
    stores := { noLinks with
      urls := .single {
        id := 1
        linkAlias := "aaaaaaa"
        ownerId := 7
        domain := "spoo.me"
        longUrl := "https://a.example/p" } }
    tags := .single { id := 3, ownerId := 7, name := "news", createdAt := 0 }
    clock := 0
    issued := 10 }, fun _ _ => false)

/-- The moves of the two calls. -/
def tagTurns (order : List Bool) : List (Bool × TagCallAnswer) := order.map (·, ⟨0, openCreateEnv⟩)

/-- The link is tagged, and then the tag is deleted. -/
theorem no_dangling_tags_inTurn :
    (Run.Guarded (TagPool.step ⟨id⟩ plainAliases) tagReferences.AddsStanding
      linkAndTag (tagTurns [true, true, true, false, false, false])) ∧
    ∀ t ∈ List.scanl (TagPool.step ⟨id⟩ plainAliases) linkAndTag
      (tagTurns [true, true, true, false, false, false]), NoDanglingTags t.shared.1 :=
  ⟨by decide +kernel, no_dangling_tags_while_standing ⟨id⟩ plainAliases linkAndTag _
    (fun who => by cases who <;> exact trivial) (by decide +kernel) (by decide +kernel)⟩

/-- The call has its answer. -/
def TagCallPhase.isDone (phase : TagCallPhase) : Bool :=
  match phase with
  | .tag (.done _) => true
  | .done _ => true
  | _ => false

/-- The tag is deleted between the check and the write, and stays on the link when both have finished. -/
theorem dangling_tag_deletedMeanwhile :
    (linkAndTag.agents true = .vouching [1] [3] [] 7 ∧ linkAndTag.agents false = .tag (.finding 7 3)) ∧
    NoDanglingTags linkAndTag.shared.1 ∧
    (∀ who, (((tagTurns [true, false, false, false, true, true]).foldl
      (TagPool.step ⟨id⟩ plainAliases) linkAndTag).agents who).isDone = true) ∧
    ¬ NoDanglingTags ((tagTurns [true, false, false, false, true, true]).foldl
      (TagPool.step ⟨id⟩ plainAliases) linkAndTag).shared.1 :=
  ⟨⟨rfl, rfl⟩, by decide +kernel⟩

end Spoo
