import Spoo.Proofs.TagReferences

/-!
# The tags that `bulk_tag` writes

`bulk_tag` checks the cap on the tags it has read, and its pipeline computes on those that are there at
the write. Creations, updates and deleted tags change them in between.
-/

namespace Spoo

open Agents Aggregation Fallible Mongo Mongo.Collection BulkUrlService

variable {ι : Type}

/-- The tags of a link: none of them twice, and no more than a link may have. -/
def TagsInOrder (tagIds : List ObjectId) : Prop :=
  tagIds.Nodup ∧ tagIds.length ≤ tagsMaxPerLink

instance (tagIds : List ObjectId) : Decidable (TagsInOrder tagIds) :=
  inferInstanceAs (Decidable (_ ∧ _))

/-- Every link has its tags in order. -/
def LinksTagged (s : TaggedWorld) : Prop := ∀ row ∈ s.stores.urls.docs, TagsInOrder row.tagIds

instance (s : TaggedWorld) : Decidable (LinksTagged s) :=
  inferInstanceAs (Decidable (∀ row ∈ s.stores.urls.docs, TagsInOrder row.tagIds))

/-! ## Ids of a request -/

namespace parseObjectId

/-- A digit of the text of an id, with the value it stands for. -/
theorem hexDigit_eq_some {c : Char}
    (h : (c.isDigit || (decide ('a' ≤ c) && decide (c ≤ 'f'))) = true) :
    ∃ d, hexDigit c = some d ∧ d < 16 ∧ c.toNat = if d < 10 then d + 48 else d + 87 := by
  simp only [Char.isDigit, Bool.or_eq_true, Bool.and_eq_true, decide_eq_true_eq] at h
  rcases h with ⟨hlow, hhigh⟩ | ⟨hlow, hhigh⟩
  · have hlow' : 48 ≤ c.toNat := hlow
    have hhigh' : c.toNat ≤ 57 := hhigh
    refine ⟨c.toNat - 48, if_pos ⟨hlow, hhigh⟩, by omega, ?_⟩
    rw [if_pos (by omega)]
    omega
  · have hlow' : 97 ≤ c.toNat := hlow
    have hhigh' : c.toNat ≤ 102 := hhigh
    have hletter : ¬('0' ≤ c ∧ c ≤ '9') := by
      rintro ⟨-, hdigit⟩
      have hdigit' : c.toNat ≤ 57 := hdigit
      omega
    refine ⟨c.toNat - 97 + 10, ?_, by omega, ?_⟩
    · rw [hexDigit, if_neg hletter, if_pos ⟨hlow, hhigh⟩]
      rfl
    · rw [if_neg (by omega)]
      omega

/-- The loop over the digits gives back the value it started from and the digits. -/
theorem loop_inj {cs cs' : List Char} (hlen : cs.length = cs'.length)
    (hcs : ∀ c ∈ cs, (c.isDigit || (decide ('a' ≤ c) && decide (c ≤ 'f'))) = true)
    (hcs' : ∀ c ∈ cs', (c.isDigit || (decide ('a' ≤ c) && decide (c ≤ 'f'))) = true) :
    ∀ {v v' : Nat}, cs.foldl (fun acc c => acc.bind fun value => (hexDigit c).map (value * 16 + ·))
        (some v) =
      cs'.foldl (fun acc c => acc.bind fun value => (hexDigit c).map (value * 16 + ·)) (some v') →
      v = v' ∧ cs = cs' := by
  induction cs generalizing cs' with
  | nil =>
    intro v v' h
    obtain rfl := List.length_eq_zero_iff.1 hlen.symm
    exact ⟨Option.some.inj h, rfl⟩
  | cons c cs ih =>
    intro v v' h
    cases cs' with
    | nil => cases hlen
    | cons c' cs' =>
      obtain ⟨d, hd, hlt, hchar⟩ := hexDigit_eq_some (hcs c List.mem_cons_self)
      obtain ⟨d', hd', hlt', hchar'⟩ := hexDigit_eq_some (hcs' c' List.mem_cons_self)
      simp only [List.foldl_cons, Option.bind_some, hd, hd', Option.map_some] at h
      obtain ⟨hvalue, htail⟩ := ih (Nat.succ.inj hlen)
        (fun c hc => hcs c (List.mem_cons_of_mem _ hc))
        (fun c hc => hcs' c (List.mem_cons_of_mem _ hc)) h
      have hdigit : d = d' := by omega
      have hsame : c = c' := Char.toNat_inj.1 (by rw [hchar, hchar', hdigit])
      exact ⟨by omega, by rw [hsame, htail]⟩

end parseObjectId

/-- Two texts of ids with the same value are the same. -/
theorem parseObjectId_inj {a b : String} (ha : isObjectIdText a = true) (hb : isObjectIdText b = true)
    (h : parseObjectId a = parseObjectId b) : a = b := by
  simp only [isObjectIdText, Bool.and_eq_true, decide_eq_true_eq, List.all_eq_true] at ha hb
  rw [parseObjectId, parseObjectId, if_pos ha.1, if_pos hb.1] at h
  have hdigits := parseObjectId.loop_inj (ha.1.trans hb.1.symm) ha.2 hb.2 h
  exact String.toList_inj.1 hdigits.2

/-- Different texts parse to different ids. -/
theorem nodup_filterMap_parseObjectId {texts : List String} (hnodup : texts.Nodup)
    (htexts : ∀ text ∈ texts, isObjectIdText text = true) :
    (texts.filterMap parseObjectId).Nodup := by
  induction texts with
  | nil => exact List.nodup_nil
  | cons text texts ih =>
    obtain ⟨hfresh, hnodup⟩ := List.nodup_cons.1 hnodup
    have htail := ih hnodup fun other hother => htexts other (List.mem_cons_of_mem _ hother)
    cases hparse : parseObjectId text with
    | none =>
      rw [List.filterMap_cons_none hparse]
      exact htail
    | some tagId =>
      rw [List.filterMap_cons_some hparse, List.nodup_cons]
      refine ⟨fun hmem => ?_, htail⟩
      obtain ⟨other, hother, hsame⟩ := List.mem_filterMap.1 hmem
      have hequal : text = other := parseObjectId_inj (htexts text List.mem_cons_self)
        (htexts other (List.mem_cons_of_mem _ hother)) (hparse.trans hsame.symm)
      exact hfresh (hequal ▸ hother)

theorem BulkTagUrlsRequest.nodup_addIds (request : BulkTagUrlsRequest) : request.addIds.Nodup := by
  obtain ⟨raw, hraw⟩ := request.add_normalised
  obtain ⟨hnodup, htexts, -⟩ := normaliseObjectIds_eq_some hraw
  exact nodup_filterMap_parseObjectId hnodup htexts

/-- The tags that a creation or an update asks for, as the validator of its request leaves them. -/
def RequestedTags (tagIds : Option (List String)) : Prop :=
  ∀ texts ∈ tagIds, ∃ raw, normaliseObjectIds (some tagsMaxPerLink) raw = some texts

/-- What such a request resolves to is in order. -/
theorem tagsInOrder_resolveTagIds {tags : TagStore} {requested : Option (List String)}
    {ownerId : Option ObjectId} {tagIds : List ObjectId} (hrequested : RequestedTags requested)
    (h : UrlService.resolveTagIds tags requested ownerId = .ok tagIds) : TagsInOrder tagIds := by
  unfold UrlService.resolveTagIds at h
  dsimp only at h
  split at h
  · cases h
    exact ⟨List.nodup_nil, by simp [tagsMaxPerLink]⟩
  · rename_i hsome
    split at h
    · cases h
    · split at h
      · cases h
      · rename_i parsed hparsed
        obtain ⟨_, -, h⟩ := bind_eq_ok.1 h
        cases h
        cases requested with
        | none => exact absurd rfl hsome
        | some texts =>
          obtain ⟨raw, hraw⟩ := hrequested texts rfl
          obtain ⟨hnodup, htexts, hcap⟩ := normaliseObjectIds_eq_some hraw
          obtain rfl := PyList.filterMap_eq_of_mapM hparsed
          refine ⟨nodup_filterMap_parseObjectId hnodup htexts, ?_⟩
          exact (List.length_filterMap_le parseObjectId texts).trans (hcap _ rfl)

/-! ## What `bulk_tag` writes -/

/-- The tags that are kept and the new ones are different. -/
theorem nodup_nextTags {add remove tagIds : List ObjectId} (hadd : add.Nodup) (htags : tagIds.Nodup) :
    (nextTags add remove tagIds).Nodup := by
  unfold nextTags
  rw [List.nodup_append]
  refine ⟨htags.filter _, hadd.filter _, fun kept hkept added hadded => ?_⟩
  rintro rfl
  exact of_decide_eq_true (List.mem_filter.1 hadded).2 hkept

/-- What `bulk_tag` leaves to its write is under the cap as it was read. -/
theorem length_le_of_mem_judgeTags {add remove : List ObjectId} {loaded : BulkBatch} :
    ∀ doc ∈ (judgeTags add remove loaded).2,
      (nextTags add remove doc.tagIds).length ≤ tagsMaxPerLink := by
  refine List.foldlRecOn loaded.pending _ (motive := fun acc : BulkBatch × List UrlV2Doc =>
    ∀ doc ∈ acc.2, (nextTags add remove doc.tagIds).length ≤ tagsMaxPerLink) ?_ ?_
  · exact fun doc hdoc => by cases hdoc
  · intro acc hacc first _
    split
    · exact hacc
    · rename_i hverdict
      intro doc hdoc
      rcases List.mem_append.1 hdoc with hdoc | hdoc
      · exact hacc doc hdoc
      · rw [List.mem_singleton.1 hdoc]
        unfold tagVerdict at hverdict
        split at hverdict
        · cases hverdict
        · split at hverdict
          · cases hverdict
          · rename_i hle
            exact Nat.not_lt.1 hle

namespace TagCallPhase

/-- The documents that a write of `bulk_tag` reaches: as they were read, and as they are. -/
def Reaches (phase : TagCallPhase) (s : TaggedWorld)
    (P : (add remove : List ObjectId) → (read : UrlV2Doc) → (current : UrlRow) → Prop) : Prop :=
  match phase with
  | .retagging _ changed add remove ownerId _ => ∀ doc ∈ changed, ∀ row ∈ s.stores.urls.docs,
    row.id = doc.id → row.ownerId = ownerId → P add remove doc row
  | _ => True

instance (phase : TagCallPhase) (s : TaggedWorld)
    (P : List ObjectId → List ObjectId → UrlV2Doc → UrlRow → Prop)
    [∀ add remove read current, Decidable (P add remove read current)] :
    Decidable (phase.Reaches s P) :=
  match phase with
  | .retagging _ changed add remove ownerId _ => inferInstanceAs (Decidable (∀ doc ∈ changed,
    ∀ row ∈ s.stores.urls.docs, row.id = doc.id → row.ownerId = ownerId → P add remove doc row))
  | .tag _ | .creating .. | .resolving .. | .inserting _ | .finding .. | .deciding .. | .writing ..
  | .vouching .. | .loading .. | .done _ => inferInstanceAs (Decidable True)

/-- The next move writes, on every document, the tags that were computed for it in Python. -/
def WritesComputed (phase : TagCallPhase) (s : TaggedWorld) : Prop :=
  phase.Reaches s fun add remove read current => ∀ stored : Option (List ObjectId),
    stored.getD [] = current.tagIds → eval (tagFields stored) .empty (tagIdsExpr add remove) =
      some (.array (nextTags add remove read.tagIds))

/-- A call with a request that its validators have let through, before its first move. -/
def Requested (phase : TagCallPhase) : Prop :=
  match phase with
  | .tag (.counting _) => True
  | .tag (.finding _ _) => True
  | .creating request _ _ _ => RequestedTags request.tagIds
  | .finding _ request _ _ => ∀ tagIds ∈ request.tagIds, RequestedTags tagIds
  | .vouching _ add remove _ =>
    ∃ request : BulkTagUrlsRequest, add = request.addIds ∧ remove = request.removeIds
  | _ => False

/-- What a call carries into its next move is in order. -/
def CarriesInOrder (phase : TagCallPhase) : Prop :=
  match phase with
  | .tag _ => True
  | .creating request _ _ _ => RequestedTags request.tagIds
  | .resolving request _ _ _ _ _ => RequestedTags request.tagIds
  | .inserting row => TagsInOrder row.tagIds
  | .finding _ request _ _ => ∀ tagIds ∈ request.tagIds, RequestedTags tagIds
  | .deciding _ request _ _ => ∀ tagIds ∈ request.tagIds, RequestedTags tagIds
  | .writing _ _ ops => ∀ tagIds ∈ ops.tagIds, TagsInOrder tagIds
  | .vouching _ add _ _ => add.Nodup
  | .loading _ add _ _ => add.Nodup
  | .retagging _ changed add remove _ _ =>
    add.Nodup ∧ ∀ doc ∈ changed, (nextTags add remove doc.tagIds).length ≤ tagsMaxPerLink
  | .done _ => True

theorem Requested.carriesInOrder {phase : TagCallPhase} (h : phase.Requested) :
    phase.CarriesInOrder := by
  cases phase with
  | tag _ => exact trivial
  | creating => exact h
  | finding => exact h
  | vouching ids add remove ownerId =>
    obtain ⟨request, rfl, -⟩ := h
    exact request.nodup_addIds
  | _ => exact h.elim

end TagCallPhase

/-- Each document that the next write of `bulk_tag` reaches carries the tags it was read with. -/
def TagsAsRead (pool : Pool ι TagCallPhase TaggedWorld) (event : ι × TagCallAnswer) : Prop :=
  (pool.agents event.1).Reaches pool.shared fun _ _ read current => current.tagIds = read.tagIds

instance (pool : Pool ι TagCallPhase TaggedWorld) (event : ι × TagCallAnswer) :
    Decidable (TagsAsRead pool event) :=
  inferInstanceAs (Decidable (TagCallPhase.Reaches _ _ _))

/-- Where the documents are as they were read, the pipeline computes what Python has computed. -/
theorem TagCallPhase.writesComputed_of_asRead {phase : TagCallPhase} {s : TaggedWorld}
    (h : phase.Reaches s fun _ _ read current => current.tagIds = read.tagIds) :
    phase.WritesComputed s := by
  cases phase with
  | retagging batch changed add remove ownerId now =>
    intro doc hdoc row hrow hid howner stored hstored
    rw [eval_tagIdsExpr, hstored, h doc hdoc row hrow hid howner]
  | _ => exact trivial

/-! ## One move -/

section

variable {lib : TagLib} {cfg : AliasConfig} {env : CreateEnv} {phase : TagCallPhase} {s : TaggedWorld}

/-- The links that an update leaves are tagged in order where what it writes is. -/
theorem linksTagged_updateManyUnique {urls : UrlStore} {q : UrlRow → Bool} {u : Update UrlRow}
    (h : LinksTagged s) (hwrite : s.stores.urls.updateManyUnique q u = some urls)
    (hwritten : ∀ row ∈ s.stores.urls.find q, TagsInOrder (u.apply row).tagIds) :
    LinksTagged (s.withUrls urls) := by
  intro row hrow
  rcases tags_of_updateManyUnique hwrite hrow with hold | ⟨old, hold, rfl⟩
  · exact h row hold
  · exact hwritten old hold

/-- A tag that is taken off the links leaves the others in order. -/
theorem linksTagged_service {phase : TagPhase} (h : LinksTagged s) :
    LinksTagged (s.withRegistry (TagService.move lib phase s.registry).2) := by
  have hurls : (TagService.move lib phase s.registry).2.urls = s.stores.urls ∨
      ∃ ownerId tagId, (TagService.move lib phase s.registry).2.urls =
        (UrlRepository.pullTagIdByOwner s.stores.urls ownerId tagId).2 := by
    cases phase with
    | counting request =>
      simp only [TagService.move]
      split_ifs
      · exact .inl rfl
      · cases request.color <;> exact .inl rfl
    | listing request => exact .inl rfl
    | inserting request color =>
      simp only [TagService.move]
      split <;> exact .inl rfl
    | finding ownerId tagId =>
      simp only [TagService.move]
      split_ifs <;> exact .inl rfl
    | pulling ownerId tagId => exact .inr ⟨ownerId, tagId, rfl⟩
    | removing ownerId tagId linksUpdated => exact .inl rfl
    | done outcome => exact .inl rfl
  intro row hrow
  rcases hurls with hsame | ⟨ownerId, tagId, hpulled⟩
  · have hold : row ∈ s.stores.urls.docs := hsame ▸ hrow
    exact h row hold
  · have hnew : row ∈ (UrlRepository.pullTagIdByOwner s.stores.urls ownerId tagId).2.docs :=
      hpulled ▸ hrow
    obtain ⟨old, hold, rfl⟩ := mem_updateMany.1 hnew
    unfold applyWhere
    split_ifs
    · obtain ⟨hnodup, hcap⟩ := h old hold
      exact ⟨hnodup.filter _, (List.length_filter_le ..).trans hcap⟩
    · exact h old hold

theorem linksTagged_insert {row : UrlRow} {urls : UrlStore} (h : LinksTagged s) (hrow : TagsInOrder row.tagIds)
    (hinsert : UrlRepository.insert s.stores.urls row = some urls) : LinksTagged (s.withUrls urls) := by
  intro row' hrow'
  obtain ⟨-, -, hdocs⟩ := insertOne_eq_some hinsert
  have hmem : row' ∈ urls.docs := hrow'
  rw [hdocs, List.mem_append, List.mem_singleton] at hmem
  rcases hmem with hold | rfl
  · exact h row' hold
  · exact hrow

/-- The tags that an update writes are in order, or it writes none. -/
theorem linksTagged_update {urlId : ObjectId} {ops : UrlOps} {urls : UrlStore} (h : LinksTagged s)
    (htags : ∀ tagIds ∈ ops.tagIds, TagsInOrder tagIds)
    (hwrite : UrlRepository.update s.stores.urls urlId ops.toUpdate = some urls) :
    LinksTagged (s.withUrls urls) := by
  refine linksTagged_updateManyUnique h hwrite fun row hrow => ?_
  cases hnew : ops.tagIds with
  | none =>
    have hkept : (ops.toUpdate.apply row).tagIds = row.tagIds := by simp [UrlOps.toUpdate, hnew]
    rw [hkept]
    exact h row (List.mem_filter.1 hrow).1
  | some tagIds =>
    have hset : (ops.toUpdate.apply row).tagIds = tagIds := by simp [UrlOps.toUpdate, hnew]
    rw [hset]
    exact htags tagIds hnew

/-- A pipeline that reaches the links as they were read leaves them with as many tags as were counted. -/
theorem linksTagged_retag {changed : List UrlV2Doc} {add remove : List ObjectId} {ownerId : ObjectId}
    {now : Int} {urls : UrlStore} (h : LinksTagged s) (hadd : add.Nodup)
    (hcap : ∀ doc ∈ changed, (nextTags add remove doc.tagIds).length ≤ tagsMaxPerLink)
    (hread : ∀ doc ∈ changed, ∀ row ∈ s.stores.urls.docs, row.id = doc.id → row.ownerId = ownerId →
      row.tagIds = doc.tagIds)
    (hwrite : UrlRepository.updateByIdsAndOwner s.stores.urls (changed.map (·.id)) ownerId
      (BulkUrlService.retag add remove now).toUpdate = some urls) : LinksTagged (s.withUrls urls) := by
  refine linksTagged_updateManyUnique h hwrite fun row hrow => ?_
  obtain ⟨hmem, hmatches⟩ := List.mem_filter.1 hrow
  rw [UrlRepository.matches_idsAndOwnerFilter, Bool.and_eq_true, decide_eq_true_eq, decide_eq_true_eq,
    List.mem_map] at hmatches
  obtain ⟨⟨doc, hdoc, hid⟩, howner⟩ := hmatches
  have hsame : row.tagIds = doc.tagIds := hread doc hdoc row hmem hid.symm howner
  refine ⟨nodup_nextTags hadd (h row hmem).1, ?_⟩
  have hcounted := hcap doc hdoc
  rw [← hsame] at hcounted
  exact hcounted

/-- One move keeps the tags of the links in order, and what the call carries. -/
theorem linksTagged_go (h : LinksTagged s) (hcarries : phase.CarriesInOrder)
    (hread : phase.Reaches s fun _ _ read current => current.tagIds = read.tagIds) :
    LinksTagged (TagCallPhase.go lib cfg env phase s).2 ∧
      (TagCallPhase.go lib cfg env phase s).1.CarriesInOrder := by
  cases phase with
  | tag phase => exact ⟨linksTagged_service h, trivial⟩
  | creating request ownerId clientIp domain =>
    simp only [TagCallPhase.go]
    split
    · exact ⟨h, trivial⟩
    · exact ⟨h, hcarries⟩
  | resolving request ownerId clientIp linkAlias domain metaTags =>
    simp only [TagCallPhase.go]
    split
    · exact ⟨h, trivial⟩
    · rename_i tagIds hresolve
      exact ⟨h, tagsInOrder_resolveTagIds hcarries hresolve⟩
  | inserting row =>
    simp only [TagCallPhase.go]
    split
    · exact ⟨h, trivial⟩
    · rename_i urls hinsert
      exact ⟨linksTagged_insert h hcarries hinsert, trivial⟩
  | finding urlId request ownerId clientIp =>
    simp only [TagCallPhase.go]
    split
    · exact ⟨h, trivial⟩
    · exact ⟨h, hcarries⟩
  | deciding urlId request clientIp existing =>
    simp only [TagCallPhase.go]
    split
    · exact ⟨h, trivial⟩
    · rename_i ops hbuild
      split_ifs
      · exact ⟨h, trivial⟩
      · refine ⟨h, fun tagIds htags => ?_⟩
        obtain ⟨requested, hrequest, hresolve⟩ := tags_buildOps hbuild tagIds htags
        exact tagsInOrder_resolveTagIds (hcarries requested hrequest) hresolve
  | writing urlId existing ops =>
    simp only [TagCallPhase.go]
    split
    · exact ⟨h, trivial⟩
    · rename_i urls hwrite
      exact ⟨linksTagged_update h hcarries hwrite, trivial⟩
  | vouching ids add remove ownerId =>
    simp only [TagCallPhase.go]
    split
    · exact ⟨h, trivial⟩
    · exact ⟨h, hcarries⟩
  | loading ids add remove ownerId =>
    simp only [TagCallPhase.go]
    split_ifs
    · exact ⟨h, trivial⟩
    · exact ⟨h, hcarries, length_le_of_mem_judgeTags⟩
  | retagging batch changed add remove ownerId now =>
    simp only [TagCallPhase.go]
    split
    · exact ⟨h, trivial⟩
    · rename_i urls hwrite
      exact ⟨linksTagged_retag h hcarries.1 hcarries.2 hread hwrite, trivial⟩
  | done outcome => exact ⟨h, trivial⟩

end

/-! ## Whole runs -/

variable [DecidableEq ι]

/-- As long as each write of `bulk_tag` finds the tags of its documents as they were read, it writes
what was computed for them, and where the links start with their tags in order, no link gets a tag twice
or more tags than it may have: over any creations, updates, bulk changes and deletions of tags. -/
theorem tags_in_order_while_asRead (lib : TagLib) (cfg : AliasConfig)
    (pool : Pool ι TagCallPhase TaggedWorld) (events : List (ι × TagCallAnswer))
    (hread : Run.Guarded (Pool.step (TagCallPhase.move lib cfg)) TagsAsRead pool events) :
    Run.Guarded (Pool.step (TagCallPhase.move lib cfg))
        (fun t event => (t.agents event.1).WritesComputed t.shared) pool events ∧
      ((∀ who, (pool.agents who).Requested) → LinksTagged pool.shared →
        ∀ t ∈ List.scanl (Pool.step (TagCallPhase.move lib cfg)) pool events, LinksTagged t.shared) := by
  have hwrites : Run.Guarded (Pool.step (TagCallPhase.move lib cfg))
      (fun t event => (t.agents event.1).WritesComputed t.shared) pool events :=
    Run.Guarded.mono (P := fun _ => True) (fun _ _ _ => trivial)
      (fun _ _ _ hasRead => TagCallPhase.writesComputed_of_asRead hasRead) trivial hread
  have hkeeps (t : Pool ι TagCallPhase TaggedWorld) (event : ι × TagCallAnswer)
      (ht : t.Sound LinksTagged fun _ phase _ => phase.CarriesInOrder) (hasRead : TagsAsRead t event) :
      Pool.Keeps LinksTagged (fun _ phase _ => phase.CarriesInOrder) event.1 t.shared
        (TagCallPhase.move lib cfg event.1 event.2 (t.agents event.1) t.shared) := by
    -- The clock goes on before the move, and the links stay.
    have hwaited : (t.agents event.1).Reaches (t.shared.wait event.2.delay)
        fun _ _ read current => current.tagIds = read.tagIds := hasRead
    have hmoved : LinksTagged (TagCallPhase.go lib cfg event.2.env (t.agents event.1)
          (t.shared.wait event.2.delay)).2 ∧
        (TagCallPhase.go lib cfg event.2.env (t.agents event.1)
          (t.shared.wait event.2.delay)).1.CarriesInOrder :=
      linksTagged_go ht.shared (ht.agents event.1) hwaited
    exact ⟨hmoved.1, hmoved.2, fun _ _ _ hother => hother⟩
  refine ⟨hwrites, fun hstart h t ht => ?_⟩
  have hsound : pool.Sound LinksTagged fun _ phase _ => phase.CarriesInOrder :=
    ⟨h, fun who => (hstart who).carriesInOrder⟩
  exact (hsound.forall_mem_scanl hkeeps hread t ht).shared

/-- The request for one tag. -/
def oneTagRequest (tagId : String) (h : normaliseObjectIds none [tagId] = some [tagId]) :
    BulkTagUrlsRequest where
  add := [tagId]
  add_normalised := ⟨[tagId], h⟩
  remove_normalised := ⟨[], rfl⟩
  some_tag := .inl (List.cons_ne_nil _ _)
  add_le := by simp [tagsMaxPerLink]
  disjoint := fun _ _ => List.not_mem_nil

/-- The link and its tag, with the two calls and no history. -/
def linkAndTagOnly : Pool Bool TagCallPhase TaggedWorld := ⟨linkAndTag.agents, linkAndTag.shared.1⟩

/-- The link is tagged, and then the tag is deleted. -/
theorem tags_in_order_inTurn :
    Run.Guarded (Pool.step (TagCallPhase.move ⟨id⟩ plainAliases))
        (fun t event => (t.agents event.1).WritesComputed t.shared) linkAndTagOnly
        (tagTurns [true, true, true, false, false, false]) ∧
      ∀ t ∈ List.scanl (Pool.step (TagCallPhase.move ⟨id⟩ plainAliases)) linkAndTagOnly
        (tagTurns [true, true, true, false, false, false]), LinksTagged t.shared := by
  obtain ⟨hwrites, htagged⟩ := tags_in_order_while_asRead ⟨id⟩ plainAliases linkAndTagOnly
    (tagTurns [true, true, true, false, false, false]) (by decide +kernel)
  refine ⟨hwrites, htagged (fun who => ?_) (by decide +kernel)⟩
  cases who with
  | true => exact ⟨oneTagRequest "000000000000000000000003" (by decide), by decide, rfl⟩
  | false => exact trivial

/-- A link with nine tags, two more tags of its owner, and a call of `bulk_tag` for each. -/
def nearlyFull : Pool Bool TagCallPhase TaggedWorld where
  agents who := .vouching [1] [if who then 3 else 4] [] 7
  shared := {
    stores := { noLinks with
      urls := .single {
        id := 1
        linkAlias := "aaaaaaa"
        ownerId := 7
        domain := "spoo.me"
        longUrl := "https://a.example/p"
        tagIds := [11, 12, 13, 14, 15, 16, 17, 18, 19] } }
    tags := {
      docs := [{ id := 3, ownerId := 7, name := "news", createdAt := 0 },
        { id := 4, ownerId := 7, name := "print", createdAt := 0 }]
      nodup_id := by decide
      nodup_key := by decide }
    clock := 0
    issued := 20 }

/-- The order in which both calls have read the link before either writes. -/
def bothReadFirst : List (Bool × TagCallAnswer) := tagTurns [true, true, false, false, true, false]

/-- The second write adds its tag to a link that has got a tenth one in between. -/
theorem bulk_tag_exceeds_cap :
    (∀ who, (nearlyFull.agents who).Requested) ∧ LinksTagged nearlyFull.shared ∧
      ¬ LinksTagged (bothReadFirst.foldl (Pool.step (TagCallPhase.move ⟨id⟩ plainAliases))
        nearlyFull).shared := by
  refine ⟨fun who => ?_, by decide +kernel⟩
  cases who with
  | true => exact ⟨oneTagRequest "000000000000000000000003" (by decide), by decide, rfl⟩
  | false => exact ⟨oneTagRequest "000000000000000000000004" (by decide), by decide, rfl⟩

end Spoo
