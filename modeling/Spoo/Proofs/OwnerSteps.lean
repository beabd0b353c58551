import Mathlib.Logic.Relation
import Spoo.Proofs.UpdateOps
import Spoo.Services.BulkUrlService

/-!
# What an owner's operation does to one link

Every method an owner can call leaves a link alone, deletes it, or rewrites it in one of a few
ways. `OwnerStep` lists these once, and the invariants about links are proved over it.
-/

namespace Spoo

open Interleave Mongo Mongo.Collection

variable {env : UpdateEnv} {urls urls' : UrlStore}

/-- One write of an owner, seen from one link. -/
inductive OwnerStep (env : UpdateEnv) : Option UrlRow → Option UrlRow → Prop where
  | deleted {row : UrlRow} (hlive : row.status ≠ .blocked) : OwnerStep env (some row) none
  | edited {row : UrlRow} {ops : UrlOps} (hlive : row.status ≠ .blocked)
      (hops : ops.Edits env (.fromMongo row)) :
      OwnerStep env (some row) (some (ops.toUpdate.apply row))
  | retagged {row : UrlRow} (add remove : List ObjectId) (now : Int) :
      OwnerStep env (some row) (some ((BulkUrlService.retag add remove now).apply row))
  | claimed {row : UrlRow} (newOwnerId : ObjectId) (now : Int) :
      OwnerStep env (some row) (some ((UrlRepository.transferTo newOwnerId now).apply row))

/-- Any number of writes of an owner. -/
abbrev OwnerSteps (env : UpdateEnv) : Option UrlRow → Option UrlRow → Prop :=
  Relation.ReflTransGen (OwnerStep env)

/-- The link is not there, or is not BLOCKED. -/
def NotBlocked (o : Option UrlRow) : Prop := ∀ row, o = some row → row.status ≠ .blocked

/-- No write of an owner blocks a link. -/
theorem OwnerSteps.notBlocked {o o' : Option UrlRow} (h : OwnerSteps env o o')
    (ho : NotBlocked o) : NotBlocked o' := by
  induction h with
  | refl => exact ho
  | tail _ hstep ih =>
    intro row' hrow'
    cases hstep with
    | deleted => cases hrow'
    | @edited row ops hlive hops =>
      cases hrow'
      intro hblocked
      cases hst : ops.status with
      | none =>
        simp only [UrlOps.toUpdate, hst, Option.getD_none] at hblocked
        exact hlive hblocked
      | some status =>
        simp only [UrlOps.toUpdate, hst, Option.getD_some] at hblocked
        rcases hops.status status hst with rfl | rfl <;> cases hblocked
    | @retagged row =>
      cases hrow'
      exact ih row rfl
    | @claimed row =>
      cases hrow'
      exact ih row rfl

/-- Operations that name no destination are edits whatever the link is. -/
theorem UrlOps.Edits.of_noUrls {ops : UrlOps} {existing : UrlV2Doc} (hnew : ops.newUrls = [])
    (hsame : ops.changesDestination = false) (hdest : ops.dest = none)
    (hstatus : ∀ status, ops.status = some status → status = .active ∨ status = .inactive) :
    ops.Edits env existing := by
  refine ⟨?_, hstatus, ?_⟩
  · intro url hurl
    rw [hnew] at hurl
    cases hurl
  · rw [hsame, hdest]
    rfl

namespace UrlRepository

theorem findById_eq (store : UrlStore) (urlId : ObjectId) :
    findById store urlId = (store.lookup urlId).map UrlV2Doc.fromMongo := by
  have hfilter : (idFilter urlId).Matches = fun row : UrlRow => decide (row.id = urlId) :=
    funext fun row => matches_idFilter urlId
  rw [findById, hfilter]
  rfl

theorem ownerSteps_update {urlId : ObjectId} {ops : UrlOps} {row : UrlRow}
    (hrow : urls.lookup urlId = some row) (hlive : row.status ≠ .blocked)
    (hops : ops.Edits env (.fromMongo row))
    (h : update urls urlId ops.toUpdate = some urls') (other : ObjectId) :
    OwnerSteps env (urls.lookup other) (urls'.lookup other) := by
  rw [lookup_updateManyUnique h]
  cases hother : urls.lookup other with
  | none => exact .refl
  | some found =>
    rw [Option.map_some]
    by_cases hid : found.id = urlId
    · have hfound : found.id = other := (lookup_eq_some_iff.1 hother).2
      have heq : found = row := by
        rw [← hfound, hid, hrow] at hother
        exact (Option.some.inj hother).symm
      rw [applyWhere_of_matches _ (by simp [hid]), heq]
      exact .single (.edited hlive hops)
    · rw [applyWhere_of_not_matches _ (by simp [hid])]

/-- A bulk write edits links that were not BLOCKED when it was decided on. -/
theorem ownerSteps_updateByIdsAndOwner {ids : List ObjectId} {ownerId : ObjectId}
    {ops : UrlOps} (hlive : ∀ i ∈ ids, NotBlocked (urls.lookup i))
    (hops : ∀ existing, ops.Edits env existing)
    (h : updateByIdsAndOwner urls ids ownerId ops.toUpdate = some urls') (other : ObjectId) :
    OwnerSteps env (urls.lookup other) (urls'.lookup other) := by
  rw [lookup_updateManyUnique h]
  cases hother : urls.lookup other with
  | none => exact .refl
  | some row =>
    have hid : row.id = other := (lookup_eq_some_iff.1 hother).2
    rw [Option.map_some]
    by_cases hsel : row.id ∈ ids ∧ row.ownerId = ownerId
    · rw [applyWhere_of_matches _ (by simpa using hsel)]
      exact .single (.edited (hlive other (hid ▸ hsel.1) row hother) (hops _))
    · rw [applyWhere_of_not_matches _ (by simpa using hsel)]

theorem ownerSteps_retag {ids : List ObjectId} {ownerId : ObjectId} {add remove : List ObjectId}
    {now : Int}
    (h : updateByIdsAndOwner urls ids ownerId
      (BulkUrlService.retag add remove now).toUpdate = some urls') (other : ObjectId) :
    OwnerSteps env (urls.lookup other) (urls'.lookup other) := by
  rw [lookup_updateManyUnique h]
  cases urls.lookup other with
  | none => exact .refl
  | some row =>
    rw [Option.map_some]
    unfold applyWhere
    split
    · exact .single (.retagged add remove now)
    · exact .refl

theorem ownerSteps_delete {urlId : ObjectId} (hlive : NotBlocked (urls.lookup urlId))
    (other : ObjectId) :
    OwnerSteps env (urls.lookup other) ((delete urls urlId).lookup other) := by
  rw [delete, lookup_deleteMany]
  cases hother : urls.lookup other with
  | none => exact .refl
  | some row =>
    by_cases hid : row.id = urlId
    · have hfound : row.id = other := (lookup_eq_some_iff.1 hother).2
      have hrow : urls.lookup urlId = some row := by rw [← hid, hfound, hother]
      simp only [Option.filter_some, matches_idFilter, hid, decide_true, Bool.not_true,
        Bool.false_eq_true, if_false]
      exact .single (.deleted (hlive row hrow))
    · simp only [Option.filter_some, matches_idFilter, hid, decide_false, Bool.not_false, if_true]
      exact .refl

theorem ownerSteps_deleteByIdsAndOwner {ids : List ObjectId} {ownerId : ObjectId}
    (hlive : ∀ i ∈ ids, NotBlocked (urls.lookup i)) (other : ObjectId) :
    OwnerSteps env (urls.lookup other) ((deleteByIdsAndOwner urls ids ownerId).lookup other) := by
  rw [deleteByIdsAndOwner, lookup_deleteMany]
  cases hother : urls.lookup other with
  | none => exact .refl
  | some row =>
    have hid : row.id = other := (lookup_eq_some_iff.1 hother).2
    rw [Option.filter_some]
    split
    · exact .refl
    · rename_i hsel
      have hmem : row.id ∈ ids := by
        simp only [matches_idsAndOwnerFilter, Bool.not_eq_true', Bool.not_eq_false,
          Bool.and_eq_true, decide_eq_true_eq] at hsel
        exact hsel.1
      exact .single (.deleted (hlive other (hid ▸ hmem) row hother))

theorem ownerSteps_claimByTokenHash (urlId : ObjectId) (tokenHash : String)
    (newOwnerId : ObjectId) (claimedAt : Int) (other : ObjectId) :
    OwnerSteps env (urls.lookup other)
      ((claimByTokenHash urls urlId tokenHash newOwnerId claimedAt).1.lookup other) := by
  rw [claimByTokenHash, lookup_updateMany]
  cases urls.lookup other with
  | none => exact .refl
  | some row =>
    rw [Option.map_some]
    unfold applyWhere
    split
    · exact .single (.claimed newOwnerId claimedAt)
    · exact .refl

end UrlRepository

namespace UrlService

/-! ## The single-link methods -/

@[simp] theorem urls_invalidateKeys (v : OwnerVars) (s : Stores) :
    (invalidateKeys v s).2.urls = s.urls := by
  unfold invalidateKeys onPending
  split
  · dsimp only
    split <;> rfl
  · rfl

@[simp] theorem urls_reconcileEdge (edge : EdgeConfig) (now : Int) (v : OwnerVars)
    (s : Stores) : (reconcileEdge edge now v s).2.urls = s.urls := by
  unfold reconcileEdge onPending
  split <;> rfl

@[simp] theorem urls_dropEdge (edge : EdgeConfig) (v : OwnerVars) (s : Stores) :
    (dropEdge edge v s).2.urls = s.urls := by
  unfold dropEdge onPending
  split
  · dsimp only
    split <;> rfl
  · rfl

/-- A document that passes the opening checks belongs to a link that is not BLOCKED. -/
theorem loadOwned_ok {urlId ownerId : ObjectId} {message : String} {existing : UrlV2Doc}
    (h : loadOwned (UrlRepository.findById urls urlId) ownerId message = .ok existing) :
    ∃ row, urls.lookup urlId = some row ∧ existing = .fromMongo row ∧ row.ownerId = ownerId ∧
      row.status ≠ .blocked := by
  rw [UrlRepository.findById_eq] at h
  cases hrow : urls.lookup urlId with
  | none =>
    rw [hrow] at h
    cases h
  | some row =>
    rw [hrow] at h
    simp only [loadOwned, Option.map_some] at h
    split at h
    · cases h
    · rename_i howner
      split at h
      · cases h
      · rename_i hlive
        refine ⟨row, rfl, (Except.ok.inj h).symm, ?_, hlive⟩
        exact not_not.1 howner

section

variable {urlId ownerId : ObjectId} {request : UpdateUrlRequest} {clientIp : Option String}
  {now : Int} {existing : UrlV2Doc} {ops : UrlOps} {s : Stores}

theorem readForUpdate_stores (v : OwnerVars) :
    (readForUpdate env urlId request ownerId clientIp now v s).2 = s := by
  unfold readForUpdate
  dsimp only
  split
  · rfl
  · split <;> rfl

/-- What `update` goes on to write was decided on the link as it was read. -/
theorem readForUpdate_pending
    (h : (readForUpdate env urlId request ownerId clientIp now {} s).1.pending =
      some (existing, ops)) :
    ∃ row, s.urls.lookup urlId = some row ∧ existing = .fromMongo row ∧
      row.ownerId = ownerId ∧ row.status ≠ .blocked ∧
      ∃ built, buildOps env now request clientIp existing = .ok built ∧
        ops = { built with updatedAt := some now } := by
  unfold readForUpdate at h
  dsimp only at h
  split at h
  · cases h
  · rename_i existing' ops' hdecide
    obtain ⟨loaded, hload, hdecide⟩ := Fallible.bind_eq_ok.1 hdecide
    obtain ⟨built, hbuild, hdecide⟩ := Fallible.bind_eq_ok.1 hdecide
    cases hdecide
    split at h
    · cases h
    · cases h
      obtain ⟨row, hrow, hexisting, howner, hlive⟩ := loadOwned_ok hload
      exact ⟨row, hrow, hexisting, howner, hlive, _, hbuild, rfl⟩

theorem ownerSteps_writeUpdate
    (hpending : ∀ existing ops,
      (readForUpdate env urlId request ownerId clientIp now {} s).1.pending =
        some (existing, ops) →
      ∃ row, s.urls.lookup urlId = some row ∧ row.status ≠ .blocked ∧
        ops.Edits env (.fromMongo row)) (other : ObjectId) :
    OwnerSteps env (s.urls.lookup other)
      ((writeUpdate urlId
        (readForUpdate env urlId request ownerId clientIp now {} s).1 s).2.urls.lookup
          other) := by
  unfold writeUpdate
  split
  · rename_i existing ops hread
    obtain ⟨row, hrow, hlive, hops⟩ := hpending existing ops hread
    split
    · rename_i urls hwrite
      exact UrlRepository.ownerSteps_update hrow hlive hops hwrite other
    · exact .refl
  · exact .refl

theorem ownerSteps_update (edge : EdgeConfig) (other : ObjectId) :
    OwnerSteps env (s.urls.lookup other)
      ((update env edge urlId request ownerId clientIp now s).2.urls.lookup other) := by
  simp only [update, updateCalls, runActions_cons, runActions_nil, urls_reconcileEdge,
    urls_invalidateKeys, readForUpdate_stores]
  refine ownerSteps_writeUpdate (fun existing ops hread => ?_) other
  obtain ⟨row, hrow, rfl, -, hlive, built, hbuild, rfl⟩ := readForUpdate_pending hread
  obtain ⟨hedits, -⟩ := edits_buildOps hbuild
  exact ⟨row, hrow, hlive, hedits.newUrls, hedits.status, hedits.dest⟩

theorem ownerSteps_delete (edge : EdgeConfig) (other : ObjectId) :
    OwnerSteps env (s.urls.lookup other) ((delete edge urlId ownerId s).2.urls.lookup other) := by
  simp only [delete, deleteCalls, runActions_cons, runActions_nil, urls_dropEdge,
    urls_invalidateKeys]
  unfold readForDelete
  split
  · exact .refl
  · rename_i existing hload
    refine UrlRepository.ownerSteps_delete (fun row hrow => ?_) other
    obtain ⟨found, hfound, -, -, hlive⟩ := loadOwned_ok hload
    rw [hrow] at hfound
    exact Option.some.inj hfound ▸ hlive

theorem ownerSteps_claimItem (hashToken : String → String) (item : ObjectId × String)
    (other : ObjectId) :
    OwnerSteps env (s.urls.lookup other)
      ((claimItem hashToken ownerId now item s).2.urls.lookup other) := by
  unfold claimItem
  split
  · exact .refl
  · split
    · exact .refl
    · split
      · exact .refl
      · split
        · exact .refl
        · dsimp only
          split
          · exact UrlRepository.ownerSteps_claimByTokenHash _ _ _ _ other
          · exact .refl

theorem ownerSteps_claim (hashToken : String → String) (claims : List (ObjectId × String))
    (other : ObjectId) :
    OwnerSteps env (s.urls.lookup other)
      ((claim hashToken ownerId now claims s).2.urls.lookup other) := by
  unfold claim
  dsimp only
  split
  · exact .refl
  · refine List.foldlRecOn claims _
      (motive := fun acc : List ClaimStatus × Stores =>
        OwnerSteps env (s.urls.lookup other) (acc.2.urls.lookup other)) .refl ?_
    intro acc hacc item _
    exact hacc.trans (ownerSteps_claimItem hashToken item other)

end

end UrlService

/-! ## One update -/

namespace UrlService

variable {edge : EdgeConfig} {urlId ownerId : ObjectId} {request : UpdateUrlRequest}
  {clientIp : Option String} {now : Int} {s : Stores}

/-- The write of an update goes through, or nothing is left to be done after it. -/
theorem writeUpdate_cases (v : OwnerVars) :
    (writeUpdate urlId v s).2 = s ∧ (writeUpdate urlId v s).1.pending = none ∨
      ∃ existing ops urls, v.pending = some (existing, ops) ∧
        UrlRepository.update s.urls urlId ops.toUpdate = some urls ∧
          writeUpdate urlId v s = (v, { s with urls }) := by
  unfold writeUpdate
  split
  · rename_i existing ops hpending
    split
    · exact .inr ⟨existing, ops, _, hpending, ‹_›, rfl⟩
    · exact .inl ⟨rfl, rfl⟩
  · exact .inl ⟨rfl, ‹_›⟩

theorem writeDelete_cases (v : OwnerVars) :
    writeDelete urlId v s = (v, s) ∨ ∃ existing ops, v.pending = some (existing, ops) ∧
      writeDelete urlId v s = (v, { s with urls := UrlRepository.delete s.urls urlId }) := by
  unfold writeDelete onPending
  split
  · exact .inr ⟨_, _, ‹_›, rfl⟩
  · exact .inl rfl

theorem vars_invalidateKeys (v : OwnerVars) : (invalidateKeys v s).1 = v := by
  unfold invalidateKeys onPending
  split <;> rfl

theorem vars_reconcileEdge (v : OwnerVars) : (reconcileEdge edge now v s).1 = v := by
  unfold reconcileEdge onPending
  split <;> rfl

theorem kv_invalidateKeys (v : OwnerVars) : (invalidateKeys v s).2.kv = s.kv := by
  unfold invalidateKeys onPending
  split
  · dsimp only
    split <;> rfl
  · rfl

theorem cache_reconcileEdge (v : OwnerVars) : (reconcileEdge edge now v s).2.cache = s.cache := by
  unfold reconcileEdge onPending
  split <;> rfl

theorem kv_reconcileEdge {v : OwnerVars} {existing : UrlV2Doc} {ops : UrlOps}
    (hpending : v.pending = some (existing, ops)) :
    (reconcileEdge edge now v s).2.kv = updateEdge edge existing ops now s.kv := by
  unfold reconcileEdge onPending
  rw [hpending]

/-- A cache entry that survives the invalidation is under another key than the link. -/
theorem entries_invalidateKeys {v : OwnerVars} {existing : UrlV2Doc} {ops : UrlOps}
    (hpending : v.pending = some (existing, ops)) {key : String} {data : UrlCacheData}
    (h : (invalidateKeys v s).2.cache.entries key = some data) :
    s.cache.entries key = some data ∧ key ≠ UrlCache.key existing.linkAlias existing.domain := by
  unfold invalidateKeys onPending at h
  rw [hpending] at h
  dsimp only at h
  split at h
  · obtain ⟨-, h⟩ := UrlCache.entries_invalidate_eq_some.1 h
    exact (UrlCache.entries_invalidate_eq_some.1 h).symm
  · exact (UrlCache.entries_invalidate_eq_some.1 h).symm

/-- An update leaves the stores alone, or writes what it decided on the link it read, drops the
link from the cache and sees to the edge. -/
theorem update_cases :
    (update env edge urlId request ownerId clientIp now s).2 = s ∨
      ∃ row built urls, s.urls.lookup urlId = some row ∧
        buildOps env now request clientIp (.fromMongo row) = .ok built ∧
        UrlRepository.update s.urls urlId
          ({ built with updatedAt := some now } : UrlOps).toUpdate = some urls ∧
        (update env edge urlId request ownerId clientIp now s).2.urls = urls ∧
        (update env edge urlId request ownerId clientIp now s).2.kv =
          updateEdge edge (.fromMongo row) { built with updatedAt := some now } now s.kv ∧
        ∀ key data,
          (update env edge urlId request ownerId clientIp now s).2.cache.entries key = some data →
            s.cache.entries key = some data ∧ key ≠ UrlCache.key row.linkAlias row.domain := by
  have hread : (readForUpdate env urlId request ownerId clientIp now {} s).2 = s :=
    readForUpdate_stores {}
  cases hpending : (readForUpdate env urlId request ownerId clientIp now {} s).1.pending with
  | none =>
    left
    simp only [update, updateCalls, runActions_cons, runActions_nil, hread, writeUpdate,
      hpending, invalidateKeys, reconcileEdge, onPending]
  | some decision =>
    obtain ⟨existing, ops⟩ := decision
    obtain ⟨row, hrow, rfl, -, -, built, hbuild, rfl⟩ := readForUpdate_pending hpending
    cases hwrite : UrlRepository.update s.urls urlId
        ({ built with updatedAt := some now } : UrlOps).toUpdate with
    | none =>
      left
      simp only [update, updateCalls, runActions_cons, runActions_nil, hread, writeUpdate,
        hpending, hwrite, invalidateKeys, reconcileEdge, onPending]
    | some urls =>
      right
      refine ⟨row, built, urls, hrow, hbuild, hwrite, ?_⟩
      simp only [update, updateCalls, runActions_cons, runActions_nil, hread, writeUpdate,
        hpending, hwrite, urls_reconcileEdge, urls_invalidateKeys, vars_invalidateKeys,
        cache_reconcileEdge, kv_reconcileEdge hpending, kv_invalidateKeys]
      refine ⟨trivial, trivial, fun key data h => ?_⟩
      have hkept := entries_invalidateKeys hpending h
      exact hkept

/-! What an update comes to, by what it decides on the link that it reads. -/

section

variable {existing : UrlV2Doc} {ops : UrlOps} {e : AppError}

theorem update_refused (hload : loadOwned (UrlRepository.findById s.urls urlId) ownerId
      "Cannot modify a blocked URL" = .error e) :
    update env edge urlId request ownerId clientIp now s = (some (.error (.app e)), s) := by
  simp only [update, updateCalls, runActions_cons, runActions_nil, readForUpdate, hload, bind,
    Except.bind, writeUpdate, invalidateKeys, reconcileEdge, onPending]

variable (hload : loadOwned (UrlRepository.findById s.urls urlId) ownerId
  "Cannot modify a blocked URL" = .ok existing)

include hload

theorem update_rejected (hbuild : buildOps env now request clientIp existing = .error e) :
    update env edge urlId request ownerId clientIp now s = (some (.error (.app e)), s) := by
  simp only [update, updateCalls, runActions_cons, runActions_nil, readForUpdate, hload, hbuild, bind,
    Except.bind, writeUpdate, invalidateKeys, reconcileEdge, onPending]

theorem update_unchanged (hbuild : buildOps env now request clientIp existing = .ok {}) :
    update env edge urlId request ownerId clientIp now s = (some (.ok existing), s) := by
  simp only [update, updateCalls, runActions_cons, runActions_nil, readForUpdate, hload, hbuild, bind,
    Except.bind, if_true, writeUpdate, invalidateKeys, reconcileEdge, onPending]

variable (hbuild : buildOps env now request clientIp existing = .ok ops) (hops : ops ≠ {})

include hbuild hops

theorem update_duplicate (hwrite : UrlRepository.update s.urls urlId
      ({ ops with updatedAt := some now } : UrlOps).toUpdate = none) :
    update env edge urlId request ownerId clientIp now s = (some (.error .duplicateKey), s) := by
  simp only [update, updateCalls, runActions_cons, runActions_nil, readForUpdate, hload, hbuild, bind,
    Except.bind, hops, if_false, toWrite, writeUpdate, hwrite, invalidateKeys, reconcileEdge, onPending]

theorem update_written {urls : UrlStore} (hwrite : UrlRepository.update s.urls urlId
      ({ ops with updatedAt := some now } : UrlOps).toUpdate = some urls) :
    (update env edge urlId request ownerId clientIp now s).1 =
        some (.ok (({ ops with updatedAt := some now } : UrlOps).merge existing)) ∧
      (update env edge urlId request ownerId clientIp now s).2.urls = urls := by
  simp only [update, updateCalls, runActions_cons, runActions_nil, readForUpdate, hload, hbuild, bind,
    Except.bind, hops, if_false, toWrite, writeUpdate, hwrite, urls_reconcileEdge, urls_invalidateKeys,
    vars_invalidateKeys, vars_reconcileEdge, and_self]

end

end UrlService

namespace BulkBatch

variable {batch : BulkBatch} {urlId : ObjectId}

theorem mem_keys_reject {code message : String} {linkAlias : Option String} {i : ObjectId} :
    i ∈ (batch.reject urlId code message linkAlias).rows.keys ↔
      i ∈ batch.rows.keys ∨ i = urlId := PyDict.mem_keys_assign

theorem mem_pending {doc : UrlV2Doc} : doc ∈ batch.pending ↔
    ∃ i ∈ batch.order, i ∉ batch.rows.keys ∧ batch.doc? i = some doc := by
  simp only [pending, List.mem_filterMap]
  refine exists_congr fun i => and_congr_right fun _ => ?_
  split <;> simp [*]

end BulkBatch

namespace BulkUrlService

/-! ## The bulk methods -/

variable {ids : List ObjectId} {ownerId : ObjectId} {message : String}

/-- The links whose ids `_load` refuses. -/
private theorem foldl_loadVerdict (order : List ObjectId) :
    ∀ batch : BulkBatch,
      (order.foldl (loadVerdict message) batch).order = batch.order ∧
      (order.foldl (loadVerdict message) batch).docs = batch.docs ∧
      ∀ i, i ∈ (order.foldl (loadVerdict message) batch).rows.keys ↔
        i ∈ batch.rows.keys ∨
          i ∈ order ∧ ∀ doc, batch.doc? i = some doc → doc.status = .blocked := by
  induction order with
  | nil => simp
  | cons urlId order ih =>
    intro batch
    obtain ⟨horder, hdocs, hkeys⟩ := ih (loadVerdict message batch urlId)
    have hsame : (loadVerdict message batch urlId).order = batch.order ∧
        (loadVerdict message batch urlId).docs = batch.docs := by
      unfold loadVerdict
      split
      · exact ⟨rfl, rfl⟩
      · split <;> exact ⟨rfl, rfl⟩
    have hdoc : (loadVerdict message batch urlId).doc? = batch.doc? := by
      funext i
      rw [BulkBatch.doc?, BulkBatch.doc?, hsame.2]
    have hone : ∀ i, i ∈ (loadVerdict message batch urlId).rows.keys ↔
        i ∈ batch.rows.keys ∨
          i = urlId ∧ ∀ doc, batch.doc? i = some doc → doc.status = .blocked := by
      intro i
      unfold loadVerdict
      split
      · rename_i hnone
        rw [BulkBatch.mem_keys_reject]
        refine or_congr_right ⟨fun h => ⟨h, ?_⟩, fun h => h.1⟩
        rw [h, hnone]
        simp
      · rename_i doc hsome
        split
        · rename_i hblocked
          rw [BulkBatch.mem_keys_reject]
          refine or_congr_right ⟨fun h => ⟨h, ?_⟩, fun h => h.1⟩
          rw [h, hsome]
          intro d hd
          exact Option.some.inj hd ▸ hblocked
        · rename_i hlive
          refine ⟨.inl, fun h => h.resolve_right ?_⟩
          rintro ⟨rfl, hall⟩
          exact hlive (hall doc hsome)
    refine ⟨horder.trans hsame.1, hdocs.trans hsame.2, fun i => ?_⟩
    rw [List.foldl_cons, hkeys, hone, hdoc, List.mem_cons]
    tauto

theorem load_spec : (load urls ids ownerId message).order = ids.eraseDups ∧
    (load urls ids ownerId message).docs =
      UrlRepository.findByIdsAndOwner urls ids.eraseDups ownerId ∧
    ∀ i ∈ ids, i ∈ (load urls ids ownerId message).rows.keys ↔
      ∀ doc, (load urls ids ownerId message).doc? i = some doc → doc.status = .blocked := by
  have h := @foldl_loadVerdict message ids.eraseDups
    { order := ids.eraseDups
      docs := UrlRepository.findByIdsAndOwner urls ids.eraseDups ownerId }
  refine ⟨h.1, h.2.1, fun i hi => ?_⟩
  have hkeys := h.2.2 i
  have hempty : i ∉ (PyDict.empty : PyDict ObjectId BulkUrlResultRow).keys := List.not_mem_nil
  rw [load, hkeys, or_iff_right hempty, and_iff_right (List.mem_eraseDups.2 hi)]
  simp only [BulkBatch.doc?, h.2.1]

theorem doc?_load {i : ObjectId} {doc : UrlV2Doc} (hi : i ∈ ids) :
    (load urls ids ownerId message).doc? i = some doc ↔
      ∃ row, urls.lookup i = some row ∧ row.ownerId = ownerId ∧ doc = .fromMongo row := by
  rw [BulkBatch.doc?, load_spec.2.1, UrlRepository.findByIdsAndOwner, List.find?_map,
    Option.map_eq_some_iff]
  simp only [Mongo.Collection.find, List.find?_filter]
  constructor
  · rintro ⟨row, hfind, rfl⟩
    have hsel := List.find?_some hfind
    simp only [UrlRepository.matches_idsAndOwnerFilter, Function.comp_apply, UrlV2Doc.fromMongo,
      Bool.and_eq_true, decide_eq_true_eq] at hsel
    exact ⟨row, lookup_eq_some_iff.2 ⟨List.mem_of_find?_eq_some hfind, of_decide_eq_true hsel.2⟩, hsel.1.2, rfl⟩
  · rintro ⟨row, hrow, howner, rfl⟩
    obtain ⟨hmem, hid⟩ := lookup_eq_some_iff.1 hrow
    have hid : row.id = i := hid
    refine ⟨row, ?_, rfl⟩
    -- The collection holds one document with this id.
    cases hfind : urls.docs.find? _ with
    | none =>
      have hnot := List.find?_eq_none.1 hfind row hmem
      simp [hid, hi, howner, UrlV2Doc.fromMongo] at hnot
    | some found =>
      have hsel := List.find?_some hfind
      simp only [UrlRepository.matches_idsAndOwnerFilter, Function.comp_apply,
        UrlV2Doc.fromMongo, Bool.and_eq_true, decide_eq_true_eq] at hsel
      have hfound : urls.lookup i = some found :=
        lookup_eq_some_iff.2 ⟨List.mem_of_find?_eq_some hfind, of_decide_eq_true hsel.2⟩
      rw [← hrow, hfound]

/-- What `_load` leaves to a bulk method: the requested links of the owner that are not
BLOCKED. -/
theorem mem_pending_load {doc : UrlV2Doc} : doc ∈ (load urls ids ownerId message).pending ↔
    ∃ row, urls.lookup row.id = some row ∧ doc = .fromMongo row ∧ row.id ∈ ids ∧
      row.ownerId = ownerId ∧ row.status ≠ .blocked := by
  obtain ⟨horder, -, hkeys⟩ := @load_spec urls ids ownerId message
  rw [BulkBatch.mem_pending, horder]
  constructor
  · rintro ⟨i, hi, hfree, hdoc⟩
    have hmem : i ∈ ids := List.mem_eraseDups.1 hi
    obtain ⟨row, hrow, howner, rfl⟩ := (doc?_load hmem).1 hdoc
    have hid : row.id = i := (lookup_eq_some_iff.1 hrow).2
    subst hid
    refine ⟨row, hrow, rfl, hmem, howner, fun hblocked => hfree ?_⟩
    refine (hkeys _ hmem).2 fun doc hdoc' => ?_
    rw [hdoc] at hdoc'
    exact Option.some.inj hdoc' ▸ hblocked
  · rintro ⟨row, hrow, rfl, hmem, howner, hlive⟩
    have hdoc : (load urls ids ownerId message).doc? row.id = some (.fromMongo row) :=
      (doc?_load hmem).2 ⟨row, hrow, howner, rfl⟩
    exact ⟨row.id, List.mem_eraseDups.2 hmem, fun hkey => hlive ((hkeys _ hmem).1 hkey _ hdoc),
      hdoc⟩

/-- The documents are of links that are not BLOCKED. -/
def AllLive (urls : UrlStore) (docs : List UrlV2Doc) : Prop :=
  ∀ doc ∈ docs, NotBlocked (urls.lookup doc.id)

theorem allLive_pending : AllLive urls (load urls ids ownerId message).pending := by
  intro doc hdoc row hrow
  obtain ⟨found, hfound, rfl, -, -, hlive⟩ := mem_pending_load.1 hdoc
  have hsame : urls.lookup found.id = some row := hrow
  rw [hfound] at hsame
  exact Option.some.inj hsame ▸ hlive

theorem AllLive.sublist {docs docs' : List UrlV2Doc} (h : AllLive urls docs)
    (hsub : docs' ⊆ docs) : AllLive urls docs' := fun doc hdoc => h doc (hsub hdoc)

theorem AllLive.steps {docs : List UrlV2Doc} (h : AllLive urls docs)
    (hsteps : ∀ other, OwnerSteps env (urls.lookup other) (urls'.lookup other)) :
    AllLive urls' docs := fun doc hdoc => (hsteps doc.id).notBlocked (h doc hdoc)

variable {edge : EdgeConfig} {now : Int} {s : Stores}

theorem ownerSteps_applyUpdate {setOps : UrlOps} {docs : List UrlV2Doc} {batch : BulkBatch}
    (hlive : AllLive s.urls docs) (hops : ∀ existing, setOps.Edits env existing)
    (other : ObjectId) :
    OwnerSteps env (s.urls.lookup other)
      ((applyUpdate edge ownerId setOps now docs batch s).2.2.urls.lookup other) := by
  unfold applyUpdate
  split
  · rename_i urls hwrite
    refine UrlRepository.ownerSteps_updateByIdsAndOwner (fun i hi => ?_) hops hwrite other
    obtain ⟨doc, hdoc, rfl⟩ := List.mem_map.1 hi
    exact hlive doc hdoc
  · exact .refl

theorem ownerSteps_writeChanged {setOps : UrlOps} {v : BulkVars}
    (hlive : AllLive s.urls v.changed) (hops : ∀ existing, setOps.Edits env existing)
    (other : ObjectId) :
    OwnerSteps env (s.urls.lookup other)
      ((writeChanged edge ownerId setOps now v s).2.urls.lookup other) := by
  unfold writeChanged
  split
  · exact .refl
  · exact ownerSteps_applyUpdate hlive hops other

theorem ownerSteps_writeReactivate {setOps : UrlOps} {v : BulkVars}
    (hlive : AllLive s.urls v.reactivate) (hops : ∀ existing, setOps.Edits env existing)
    (other : ObjectId) :
    OwnerSteps env (s.urls.lookup other)
      ((writeReactivate edge ownerId setOps now v s).2.urls.lookup other) := by
  unfold writeReactivate
  split
  · exact .refl
  · exact ownerSteps_applyUpdate hlive hops other

theorem edits_statusOps (status : OwnerStatus) (existing : UrlV2Doc) :
    (statusOps status now).Edits env existing := by
  refine .of_noUrls rfl rfl rfl fun st hst => ?_
  cases hst
  cases status with
  | active => exact .inl rfl
  | inactive => exact .inr rfl

theorem edits_plainOps (expireAfter : Option Int) (existing : UrlV2Doc) :
    (plainOps expireAfter now).Edits env existing :=
  .of_noUrls rfl rfl rfl fun _ hst => by cases hst

theorem edits_reactOps (expireAfter : Option Int) (existing : UrlV2Doc) :
    (reactOps expireAfter now).Edits env existing :=
  .of_noUrls rfl rfl rfl fun _ hst => .inl (Option.some.inj hst).symm

theorem ownerSteps_bulkSetStatus (status : OwnerStatus) (other : ObjectId) :
    OwnerSteps env (s.urls.lookup other)
      ((bulkSetStatus edge ids status ownerId now s).2.urls.lookup other) := by
  have hlive : AllLive s.urls (loadForStatus ids status ownerId {} s).1.changed :=
    allLive_pending.sublist fun _ hdoc => List.mem_of_mem_filter hdoc
  have hedge (v : BulkVars) (s : Stores) : (statusEdge edge status now v s).2.urls = s.urls := by
    cases status <;> rfl
  simp only [bulkSetStatus, bulkSetStatusCalls, runActions_cons, runActions_nil, hedge]
  exact ownerSteps_writeChanged hlive (edits_statusOps status) other

theorem ownerSteps_bulkDelete (other : ObjectId) :
    OwnerSteps env (s.urls.lookup other)
      ((bulkDelete edge ids ownerId now s).2.urls.lookup other) := by
  have hlive : AllLive s.urls (loadForDelete ids ownerId {} s).1.changed := allLive_pending
  have hwrite : OwnerSteps env (s.urls.lookup other)
      ((writeDelete ownerId (loadForDelete ids ownerId {} s).1 s).2.urls.lookup other) := by
    unfold writeDelete
    split
    · exact .refl
    · refine UrlRepository.ownerSteps_deleteByIdsAndOwner (fun i hi => ?_) other
      obtain ⟨doc, hdoc, rfl⟩ := List.mem_map.1 hi
      exact hlive doc hdoc
  exact hwrite

@[simp] theorem reactivate_writeChanged (setOps : UrlOps) (v : BulkVars) :
    (writeChanged edge ownerId setOps now v s).1.reactivate = v.reactivate := by
  unfold writeChanged
  split <;> rfl

theorem loadForExpiry_stores (expireAfter : Option Int) (v : BulkVars) :
    (loadForExpiry ids expireAfter ownerId now v s).2 = s := by
  unfold loadForExpiry
  split <;> rfl

theorem allLive_loadForExpiry (expireAfter : Option Int) :
    AllLive s.urls (loadForExpiry ids expireAfter ownerId now {} s).1.changed ∧
      AllLive s.urls (loadForExpiry ids expireAfter ownerId now {} s).1.reactivate := by
  unfold loadForExpiry
  split
  · constructor <;> exact fun doc hdoc => absurd hdoc List.not_mem_nil
  · constructor
    · exact allLive_pending.sublist fun _ h => List.mem_of_mem_filter (List.mem_of_mem_filter h)
    · exact allLive_pending.sublist fun _ h => List.mem_of_mem_filter (List.mem_of_mem_filter h)

theorem ownerSteps_bulkSetExpiry (expireAfter : Option Int) (other : ObjectId) :
    OwnerSteps env (s.urls.lookup other)
      ((bulkSetExpiry edge ids expireAfter ownerId now s).2.urls.lookup other) := by
  obtain ⟨hchanged, hreactivate⟩ :=
    @allLive_loadForExpiry ids ownerId now s expireAfter
  simp only [bulkSetExpiry, bulkSetExpiryCalls, runActions_cons, runActions_nil,
    loadForExpiry_stores]
  let loaded := (loadForExpiry ids expireAfter ownerId now {} s).1
  let plain := writeChanged edge ownerId (plainOps expireAfter now) now loaded s
  have hplain (i : ObjectId) : OwnerSteps env (s.urls.lookup i) (plain.2.urls.lookup i) :=
    ownerSteps_writeChanged hchanged (edits_plainOps expireAfter) i
  have hlive : AllLive plain.2.urls plain.1.reactivate := by
    rw [show plain.1.reactivate = loaded.reactivate from reactivate_writeChanged _ _]
    exact hreactivate.steps hplain
  exact (hplain other).trans
    (ownerSteps_writeReactivate hlive (edits_reactOps expireAfter) other)

theorem ownerSteps_moveItem {target : String} {m : MoveState} {doc : UrlV2Doc}
    (hlive : NotBlocked (m.urls.lookup doc.id)) (other : ObjectId) :
    OwnerSteps env (m.urls.lookup other)
      ((moveItem env target ownerId now m doc).urls.lookup other) := by
  unfold moveItem
  dsimp only
  split
  · exact .refl
  · split
    · exact .refl
    · split
      · exact .refl
      · split
        · exact .refl
        · rename_i urls hwrite
          refine UrlRepository.ownerSteps_updateByIdsAndOwner (fun i hi => ?_)
            (fun existing => ?_) hwrite other
          · rw [List.mem_singleton] at hi
            exact hi ▸ hlive
          · exact .of_noUrls rfl rfl rfl fun _ hst => by cases hst

theorem ownerSteps_bulkMoveDomain (domain : Option String) (other : ObjectId) :
    OwnerSteps env (s.urls.lookup other)
      ((bulkMoveDomain env edge ids domain ownerId now s).2.urls.lookup other) := by
  unfold bulkMoveDomain
  dsimp only
  let batch := load s.urls ids ownerId "Cannot modify a blocked URL"
  have hlive : AllLive s.urls batch.pending := allLive_pending
  -- Every item is moved in a store the earlier moves have left, where it is still live.
  suffices hfold : ∀ (docs : List UrlV2Doc) (m : MoveState), AllLive m.urls docs →
      OwnerSteps env (m.urls.lookup other)
        ((docs.foldl (moveItem env (targetDomain env domain) ownerId now) m).urls.lookup
          other) from
    hfold batch.pending { batch, urls := s.urls } hlive
  intro docs
  induction docs with
  | nil => exact fun _ _ => .refl
  | cons doc docs ih =>
    intro m hall
    have hdoc := hall doc List.mem_cons_self
    have hrest : AllLive (moveItem env (targetDomain env domain) ownerId now m doc).urls docs :=
      (hall.sublist fun _ => List.mem_cons_of_mem _).steps (ownerSteps_moveItem hdoc)
    exact (ownerSteps_moveItem hdoc other).trans (ih _ hrest)

theorem ownerSteps_bulkTag
    (assertOwned : Option (ObjectId → List ObjectId → Except AppError Unit))
    (add remove : List ObjectId) (other : ObjectId) :
    OwnerSteps env (s.urls.lookup other)
      ((bulkTag assertOwned ids add remove ownerId now s).2.urls.lookup other) := by
  unfold bulkTag
  dsimp only
  split
  · exact .refl
  · split
    · exact .refl
    · split
      · rename_i urls hwrite
        exact UrlRepository.ownerSteps_retag hwrite other
      · exact .refl

end BulkUrlService

/-! ## The owner's operations -/

/-- The operations of a link's owner. -/
inductive OwnerOp where
  | update (urlId : ObjectId) (request : UpdateUrlRequest) (ownerId : ObjectId)
      (clientIp : Option String) (now : Int)
  | delete (urlId ownerId : ObjectId)
  | bulkDelete (ids : List ObjectId) (ownerId : ObjectId) (now : Int)
  | bulkSetStatus (ids : List ObjectId) (status : OwnerStatus) (ownerId : ObjectId) (now : Int)
  | bulkSetExpiry (ids : List ObjectId) (expireAfter : Option Int) (ownerId : ObjectId)
      (now : Int)
  | bulkMoveDomain (ids : List ObjectId) (domain : Option String) (ownerId : ObjectId)
      (now : Int)
  | bulkTag (assertOwned : Option (ObjectId → List ObjectId → Except AppError Unit))
      (ids add remove : List ObjectId) (ownerId : ObjectId) (now : Int)
  | claim (hashToken : String → String) (ownerId : ObjectId) (now : Int)
      (claims : List (ObjectId × String))

/-- Run one operation. What other components answer meanwhile is `env`. -/
def OwnerOp.run (edge : EdgeConfig) (env : UpdateEnv) (s : Stores) : OwnerOp → Stores
  | .update urlId request ownerId clientIp now =>
    (UrlService.update env edge urlId request ownerId clientIp now s).2
  | .delete urlId ownerId => (UrlService.delete edge urlId ownerId s).2
  | .bulkDelete ids ownerId now => (BulkUrlService.bulkDelete edge ids ownerId now s).2
  | .bulkSetStatus ids status ownerId now =>
    (BulkUrlService.bulkSetStatus edge ids status ownerId now s).2
  | .bulkSetExpiry ids expireAfter ownerId now =>
    (BulkUrlService.bulkSetExpiry edge ids expireAfter ownerId now s).2
  | .bulkMoveDomain ids domain ownerId now =>
    (BulkUrlService.bulkMoveDomain env edge ids domain ownerId now s).2
  | .bulkTag assertOwned ids add remove ownerId now =>
    (BulkUrlService.bulkTag assertOwned ids add remove ownerId now s).2
  | .claim hashToken ownerId now claims =>
    (UrlService.claim hashToken ownerId now claims s).2

/-- Every operation of an owner takes every link through owner steps. -/
theorem OwnerOp.ownerSteps_run (edge : EdgeConfig) (env : UpdateEnv) (op : OwnerOp)
    (s : Stores) (other : ObjectId) :
    OwnerSteps env (s.urls.lookup other) ((op.run edge env s).urls.lookup other) := by
  cases op with
  | update => exact UrlService.ownerSteps_update edge other
  | delete => exact UrlService.ownerSteps_delete edge other
  | bulkDelete => exact BulkUrlService.ownerSteps_bulkDelete other
  | bulkSetStatus _ status => exact BulkUrlService.ownerSteps_bulkSetStatus status other
  | bulkSetExpiry _ expireAfter => exact BulkUrlService.ownerSteps_bulkSetExpiry expireAfter other
  | bulkMoveDomain _ domain => exact BulkUrlService.ownerSteps_bulkMoveDomain domain other
  | bulkTag assertOwned _ add remove =>
    exact BulkUrlService.ownerSteps_bulkTag assertOwned add remove other
  | claim hashToken _ _ claims => exact UrlService.ownerSteps_claim hashToken claims other

/-- An environment whose gate lets every destination through. -/
def openEnv : UpdateEnv where
  lib := asciiUrlLib
  systemDefaultDomain := "spoo.me"
  checkPolicy _ := none
  canonicalAlias requested :=
    if requested.toList.all fun c => c.isAlphanum || c = '_' || c = '-' then .ok requested
    else validationError "alias contains unsupported emoji or characters" "alias"
  isReservedAlias _ := false
  aliasAvailable _ _ := true
  hashPassword password := password
  geoRulesMaxCountries := 10
  geoRulesEnabled := true
  isCountryCode _ := true
  abVariantsMax := 5
  abVariantsEnabled := true
  resolveTagIds _ _ := .ok []
  resolveMetaImage tags _ := .ok (tags, none)
  validateMetaTags _ _ := .ok ()

end Spoo
