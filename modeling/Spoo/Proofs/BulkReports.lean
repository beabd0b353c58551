import Spoo.Proofs.BulkEffects
import Spoo.Proofs.Eviction
import Spoo.Proofs.LinkChanges

/-!
# What a bulk call reports when the database fails

A bulk call accounts for what it does: it raises with no link changed, or it has a row for each distinct id
whose successes are true. The keys of the links it changes are cleared.
-/

namespace Spoo

open Fallible Interleave Mongo Mongo.Collection Itemwise

/-! ## The accounting -/

/-- What a bulk call owes its caller on the links `before`: `Requested` is what it is asked to do to a
link. -/
structure BulkRun.Accounted (Requested : Option UrlRow → Prop) (ids : List ObjectId)
    (before : UrlStore) (run : BulkRun) : Prop where
  raised : run.report = none → run.urls.docs = before.docs
  rows : ∀ report ∈ run.report, ∃ row : ObjectId → BulkUrlResultRow,
    report.results = ids.eraseDups.map row ∧
    ∀ i ∈ ids, (row i).id = toString i ∧ ((row i).ok = true → Requested (run.urls.lookup i))
  cleared : ∀ old ∈ before.docs, run.urls.lookup old.id ≠ some old →
    (old.linkAlias, old.domain) ∈ run.cleared ∧
    ∀ new ∈ run.urls.lookup old.id, (new.linkAlias, new.domain) ∈ run.cleared

theorem lookup_of_docs_eq {urls urls' : UrlStore} (h : urls'.docs = urls.docs) (i : ObjectId) :
    urls'.lookup i = urls.lookup i := by
  unfold Collection.lookup Collection.findOne
  rw [h]

/-- Where nothing is written, an error may be raised. -/
theorem BulkRun.accounted_of_raise {Requested : Option UrlRow → Prop} {ids : List ObjectId}
    {before : UrlStore} {run : BulkRun} (hreport : run.report = none)
    (hdocs : run.urls.docs = before.docs) : run.Accounted Requested ids before where
  raised _ := hdocs
  rows report h := by
    rw [hreport] at h
    cases h
  cleared old hold hchanged := by
    rw [lookup_of_docs_eq hdocs] at hchanged
    exact absurd (lookup_eq_some_iff.2 ⟨hold, rfl⟩) hchanged

namespace BulkUrlService

open BulkBatch

section

variable {urls : UrlStore} {ids : List ObjectId} {ownerId i : ObjectId} {message : String}
  {Requested : Option UrlRow → Prop} {errors : DatabaseErrors} {now : Int}

/-- An id is refused, or it is a link that was left to the call. -/
theorem itemRow_cases (final : UrlV2Doc → BulkUrlResultRow) (message : String) (urls : UrlStore)
    (ownerId i : ObjectId) :
    (∃ code text linkAlias,
        itemRow final message i (ownedDoc urls ownerId i) = refusedRow i code text linkAlias) ∨
      ∃ row, urls.lookup i = some row ∧ isLive ownerId row = true ∧
        itemRow final message i (ownedDoc urls ownerId i) = final (.fromMongo row) := by
  unfold ownedDoc
  cases hrow : urls.lookup i with
  | none => exact .inl ⟨_, _, _, rfl⟩
  | some row =>
    by_cases howner : row.ownerId = ownerId
    · have hfound : (some row).filter (·.ownerId = ownerId) = some row := by simp [howner]
      rw [hfound, Option.map_some]
      by_cases hblocked : row.status = .blocked
      · exact .inl ⟨"forbidden", message, some row.linkAlias, if_pos hblocked⟩
      · exact .inr ⟨row, rfl, by simp [isLive, howner, hblocked], if_neg hblocked⟩
    · have hother : (some row).filter (·.ownerId = ownerId) = none := by simp [howner]
      rw [hother]
      exact .inl ⟨_, _, _, rfl⟩

/-- A batch in which every link that was left is reported, over links that keep their keys or go. -/
theorem Judged.accounted {judged : UrlV2Doc → Option BulkUrlResultRow} {batch : BulkBatch}
    (h : Judged urls ids ownerId message judged batch) (final : UrlV2Doc → BulkUrlResultRow)
    (f : UrlRow → Option UrlRow) {after : UrlStore} {cleared : List (String × String)}
    (hfinal : ∀ doc, judged doc = some (final doc)) (hid : ∀ doc, (final doc).id = toString doc.id)
    (hlookup : ∀ old ∈ urls.docs, after.lookup old.id = f old)
    (hkey : ∀ old new, f old = some new → Document.key new = Document.key old)
    (hok : ∀ old ∈ urls.docs, old.id ∈ ids → isLive ownerId old = true →
      (final (.fromMongo old)).ok = true → Requested (f old))
    (hcleared : ∀ old ∈ urls.docs, f old ≠ some old → (old.linkAlias, old.domain) ∈ cleared) :
    BulkRun.Accounted Requested ids urls { report := batch.report, urls := after, cleared } where
  raised hreport := by
    rw [h.report hfinal] at hreport
    cases hreport
  rows := by
    rw [h.report hfinal]
    rintro report ⟨⟩
    refine ⟨fun i => itemRow final message i (ownedDoc urls ownerId i), rfl, fun i hi => ?_⟩
    dsimp only
    rcases itemRow_cases final message urls ownerId i with ⟨code, text, linkAlias, hrow⟩ |
      ⟨row, hrow, hlive, hitem⟩
    · rw [hrow]
      exact ⟨rfl, fun hok => by cases hok⟩
    · obtain ⟨hmem, rfl⟩ := lookup_eq_some_iff.1 hrow
      have hafter : after.lookup (Document.id row) = f row := hlookup row hmem
      rw [hitem, hafter]
      exact ⟨hid _, hok row hmem hi hlive⟩
  cleared old hold hchanged := by
    dsimp only at hchanged ⊢
    rw [hlookup old hold] at hchanged ⊢
    refine ⟨hcleared old hold hchanged, fun new hnew => ?_⟩
    have hnew : new.domain = old.domain ∧ new.linkAlias = old.linkAlias :=
      Prod.mk.inj (hkey old new hnew)
    rw [hnew.1, hnew.2]
    exact hcleared old hold hchanged

/-! ## Grouped writes -/

/-- The documents that a grouped write reaches. -/
def reaches (error : Option (ObjectId → Bool)) (doc : UrlV2Doc) : Bool :=
  error.all fun reached => reached doc.id

/-- The row of a document of a grouped write. -/
def writeRow (error : Option (ObjectId → Bool)) (doc : UrlV2Doc) : BulkUrlResultRow :=
  if error.isNone then okRow doc else refusedRow doc.id "internal" internalMsg (some doc.linkAlias)

theorem id_writeRow (error : Option (ObjectId → Bool)) (doc : UrlV2Doc) :
    (writeRow error doc).id = toString doc.id := by
  unfold writeRow
  split <;> rfl

theorem ok_writeRow {error : Option (ObjectId → Bool)} {doc : UrlV2Doc}
    (h : (writeRow error doc).ok = true) : error = none := by
  cases error with
  | none => rfl
  | some reached => cases h

theorem lookup_writeOps {setOps : UrlOps} (hkey : KeepsKey setOps) (docs : List UrlV2Doc) :
    (writeOps urls docs ownerId setOps hkey).lookup i = (urls.lookup i).map fun row =>
      if row.id ∈ docs.map (·.id) ∧ row.ownerId = ownerId then setOps.toUpdate.apply row else row := by
  refine lookup_map_of_docs (docs_writeOps hkey docs) (fun row => ?_) i
  split <;> rfl

theorem applyUpdateUnder_none {setOps : UrlOps} (hkey : KeepsKey setOps) (docs : List UrlV2Doc)
    (batch : BulkBatch) :
    applyUpdateUnder none ownerId setOps docs batch urls =
      { applied := docs, batch := batch.okAll docs, urls := writeOps urls docs ownerId setOps hkey } := by
  have hwrite : UrlRepository.updateByIdsAndOwner urls (docs.map (·.id)) ownerId setOps.toUpdate =
      some (writeOps urls docs ownerId setOps hkey) :=
    updateManyUnique_of_key urls _ ⟨setOps.toUpdate, hkey.key_toUpdate⟩
  unfold applyUpdateUnder
  split
  · rename_i hnone
    rw [hnone, writeOps_nil]
    rfl
  · dsimp only
    rw [hwrite]

/-- What `_apply_update` leaves under an error, or without one. -/
theorem applyUpdateUnder_eq {error : Option (ObjectId → Bool)} {setOps : UrlOps} (hkey : KeepsKey setOps)
    (docs : List UrlV2Doc) (batch : BulkBatch) :
    (applyUpdateUnder error ownerId setOps docs batch urls).batch = batch.assignAll (writeRow error) docs ∧
      (applyUpdateUnder error ownerId setOps docs batch urls).urls =
        writeOps urls (docs.filter (reaches error)) ownerId setOps hkey ∧
      (applyUpdateUnder error ownerId setOps docs batch urls).cleared ++
        pairsOf (applyUpdateUnder error ownerId setOps docs batch urls).applied = pairsOf docs := by
  cases error with
  | none =>
    have hall : docs.filter (reaches none) = docs := List.filter_eq_self.2 fun _ _ => rfl
    rw [applyUpdateUnder_none hkey, hall]
    exact ⟨rfl, rfl, rfl⟩
  | some reached =>
    have hwrite : UrlRepository.updateByIdsAndOwner urls ((docs.filter (reached ·.id)).map (·.id)) ownerId
        setOps.toUpdate = some (writeOps urls (docs.filter (reached ·.id)) ownerId setOps hkey) :=
      updateManyUnique_of_key urls _ ⟨setOps.toUpdate, hkey.key_toUpdate⟩
    unfold applyUpdateUnder
    by_cases hnone : docs = []
    · subst hnone
      rw [if_pos rfl, List.filter_nil, writeOps_nil]
      exact ⟨rfl, rfl, rfl⟩
    · rw [if_neg hnone]
      dsimp only
      rw [hwrite]
      exact ⟨rfl, rfl, List.append_nil _⟩

theorem mem_pairsOf_slice {p : UrlV2Doc → Bool} {row : UrlRow} (hrow : row ∈ urls.docs)
    (hi : row.id ∈ ids) (hlive : isLive ownerId row = true) (hp : p (.fromMongo row) = true) :
    (row.linkAlias, row.domain) ∈ pairsOf ((load urls ids ownerId message).pending.filter p) := by
  have hpending : UrlV2Doc.fromMongo row ∈ (load urls ids ownerId message).pending :=
    mem_pending_load_iff.2 ⟨hi, liveDoc_eq_some_iff.2 ⟨row, lookup_eq_some_iff.2 ⟨hrow, rfl⟩, hlive, rfl⟩⟩
  exact List.mem_map.2 ⟨.fromMongo row, List.mem_filter.2 ⟨hpending, hp⟩, rfl⟩

/-- A link as a write to a slice of those that were left finds and leaves it. -/
theorem lookup_writeOps_slice {setOps : UrlOps} (hkey : KeepsKey setOps) {p : UrlV2Doc → Bool}
    {store : UrlStore} {old row : UrlRow} (hold : old ∈ urls.docs) (hrow : store.lookup old.id = some row)
    (howner : row.ownerId = old.ownerId) :
    (writeOps store ((load urls ids ownerId message).pending.filter p) ownerId setOps hkey).lookup old.id =
      some (if old.id ∈ ids ∧ isLive ownerId old = true ∧ p (.fromMongo old) = true then
        setOps.toUpdate.apply row else row) := by
  have hid : row.id = old.id := (lookup_eq_some_iff.1 hrow).2
  rw [lookup_writeOps, hrow, Option.map_some, Option.some.injEq, hid, howner]
  refine if_congr ((and_congr_left' (mem_ids_filter_pending hold)).trans ?_) rfl rfl
  refine and_iff_left_of_imp fun h => ?_
  have hlive := h.2.1
  simp only [isLive, Bool.and_eq_true, decide_eq_true_eq] at hlive
  exact hlive.1

/-- A status change accounts for what it does, whatever fails. -/
theorem accounted_bulkSetStatus (status : OwnerStatus) :
    (bulkSetStatusUnder errors ids status ownerId now urls).Accounted
      (fun found => ∃ row ∈ found, row.status = status.toUrlStatus) ids urls := by
  unfold bulkSetStatusUnder
  split
  · exact BulkRun.accounted_of_raise rfl rfl
  dsimp only
  have hupdate (docs : List UrlV2Doc) (batch : BulkBatch) :
      (applyUpdateUnder errors.write ownerId (statusOps status now) docs batch urls).batch = _ ∧ _ :=
    applyUpdateUnder_eq (keepsKey_statusOps status) docs batch
  rw [(hupdate _ _).1, (hupdate _ _).2.1, (hupdate _ _).2.2, List.filter_filter]
  have hloaded : Judged urls ids ownerId "Cannot modify a blocked URL" _ _ := judged_load
  have hjudged := (hloaded.assignAll (fun doc => decide (doc.status = status.toUrlStatus)) okRow).assignAll
    (fun doc => decide (doc.status ≠ status.toUrlStatus)) (writeRow errors.write)
  refine hjudged.accounted
    (fun doc => if doc.status = status.toUrlStatus then okRow doc else writeRow errors.write doc) _
    (fun doc => ?_) (fun doc => ?_)
    (fun old hold => lookup_writeOps_slice _ hold (lookup_eq_some_iff.2 ⟨hold, rfl⟩) rfl) ?_ ?_ ?_
  · by_cases hsame : doc.status = status.toUrlStatus <;> simp [hsame]
  · split
    · rfl
    · exact id_writeRow errors.write doc
  · rintro old new ⟨⟩
    split <;> rfl
  · intro old hold hi hlive hok
    have hstatus : (UrlV2Doc.fromMongo old).status = old.status := rfl
    by_cases hsame : old.status = status.toUrlStatus
    · refine ⟨old, ?_, hsame⟩
      simp [hstatus, hsame]
    · simp only [hstatus, if_neg hsame] at hok
      have herror : errors.write = none := ok_writeRow hok
      refine ⟨_, rfl, ?_⟩
      simp [hi, hlive, hstatus, hsame, herror, reaches, statusOps, UrlOps.toUpdate]
  · intro old hold hchanged
    have htouched : old.id ∈ ids ∧ isLive ownerId old = true ∧ (reaches errors.write (.fromMongo old) &&
        decide ((UrlV2Doc.fromMongo old).status ≠ status.toUrlStatus)) = true := by
      by_contra hnot
      exact hchanged (by rw [if_neg hnot])
    obtain ⟨hi, hlive, hslice⟩ := htouched
    rw [Bool.and_eq_true] at hslice
    exact mem_pairsOf_slice hold hi hlive hslice.2

/-- A link that has the requested expiry already is one without any. -/
theorem expireAfter_of_not_differs {expireAfter : Option Int} {row : UrlRow}
    (h : expiryDiffers expireAfter (.fromMongo row) = false) :
    row.expireAfter = expireAfter.map BsonDate.encode := by
  cases expireAfter with
  | none => simpa [expiryDiffers, UrlV2Doc.fromMongo] using h
  | some value =>
    -- A stored date is naive, so it never equals the one of a request.
    cases hstored : row.expireAfter <;>
      simp [expiryDiffers, UrlV2Doc.fromMongo, hstored, BsonDate.decode] at h

/-- An expiry change accounts for what it does, whatever fails. -/
theorem accounted_bulkSetExpiry (expireAfter : Option Int) :
    (bulkSetExpiryUnder errors ids expireAfter ownerId now urls).Accounted
      (fun found => ∃ row ∈ found, row.expireAfter = expireAfter.map BsonDate.encode) ids urls := by
  unfold bulkSetExpiryUnder
  split
  · exact BulkRun.accounted_of_raise rfl rfl
  dsimp only
  have hplain (docs : List UrlV2Doc) (batch : BulkBatch) :
      (applyUpdateUnder errors.write ownerId (plainOps expireAfter now) docs batch urls).batch = _ ∧ _ :=
    applyUpdateUnder_eq (keepsKey_plainOps expireAfter) docs batch
  have hreact (docs : List UrlV2Doc) (batch : BulkBatch) (urls : UrlStore) :
      (applyUpdateUnder errors.reactivate ownerId (reactOps expireAfter now) docs batch urls).batch = _ ∧
        _ := applyUpdateUnder_eq (keepsKey_reactOps expireAfter) docs batch
  have hcleared (docs docs' : List UrlV2Doc) (batch batch' : BulkBatch) (urls' : UrlStore)
      {pair : String × String} (hpair : pair ∈ pairsOf docs ∨ pair ∈ pairsOf docs') :
      pair ∈ (applyUpdateUnder errors.write ownerId (plainOps expireAfter now) docs batch urls).cleared ++
        (applyUpdateUnder errors.reactivate ownerId (reactOps expireAfter now) docs' batch' urls').cleared ++
        pairsOf ((applyUpdateUnder errors.write ownerId (plainOps expireAfter now) docs batch
          urls).applied ++ (applyUpdateUnder errors.reactivate ownerId (reactOps expireAfter now) docs'
            batch' urls').applied) := by
    rw [← (hplain docs batch).2.2, ← (hreact docs' batch' urls').2.2] at hpair
    simp only [pairsOf, List.map_append, List.mem_append] at hpair ⊢
    tauto
  rw [(hreact _ _ _).1, (hreact _ _ _).2.1, (hplain _ _).1, (hplain _ _).2.1]
  simp only [List.filter_filter]
  have hloaded : Judged urls ids ownerId "Cannot modify a blocked URL" _ _ := judged_load
  have hjudged := ((hloaded.assignAll (fun doc => !expiryDiffers expireAfter doc) okRow).assignAll
    (fun doc => decide (doc.status ≠ .expired) && expiryDiffers expireAfter doc)
    (writeRow errors.write)).assignAll
    (fun doc => decide (doc.status = .expired) && expiryDiffers expireAfter doc)
    (writeRow errors.reactivate)
  refine hjudged.accounted
    (fun doc => if expiryDiffers expireAfter doc then
      writeRow (if doc.status = .expired then errors.reactivate else errors.write) doc else okRow doc) _
    (fun doc => ?_) (fun doc => ?_) (fun old hold => lookup_writeOps_slice _ hold
      (lookup_writeOps_slice _ hold (lookup_eq_some_iff.2 ⟨hold, rfl⟩) rfl) ?_) ?_ ?_ ?_
  · by_cases hdiffers : expiryDiffers expireAfter doc = true <;>
      by_cases hexpired : doc.status = .expired <;> simp [hdiffers, hexpired]
  · split
    · exact id_writeRow _ doc
    · rfl
  · split <;> rfl
  · rintro old new ⟨⟩
    split <;> split <;> rfl
  · intro old hold hi hlive hok
    have hstatus : (UrlV2Doc.fromMongo old).status = old.status := rfl
    by_cases hdiffers : expiryDiffers expireAfter (.fromMongo old) = true
    · rw [if_pos hdiffers] at hok
      have herror := ok_writeRow hok
      refine ⟨_, rfl, ?_⟩
      by_cases hexpired : old.status = .expired
      · rw [hstatus, if_pos hexpired] at herror
        simp [hi, hlive, hstatus, hexpired, hdiffers, herror, reaches, reactOps, plainOps,
          UrlOps.toUpdate]
      · rw [hstatus, if_neg hexpired] at herror
        simp [hi, hlive, hstatus, hexpired, hdiffers, herror, reaches, plainOps, UrlOps.toUpdate]
    · refine ⟨old, ?_, expireAfter_of_not_differs (by simpa using hdiffers)⟩
      simp [hdiffers]
  · intro old hold hchanged
    by_cases hplainSlice : old.id ∈ ids ∧ isLive ownerId old = true ∧
        (reaches errors.write (.fromMongo old) && (decide ((UrlV2Doc.fromMongo old).status ≠ .expired) &&
          expiryDiffers expireAfter (.fromMongo old))) = true
    · obtain ⟨hi, hlive, hslice⟩ := hplainSlice
      rw [Bool.and_eq_true] at hslice
      exact hcleared _ _ _ _ _ (.inl (mem_pairsOf_slice hold hi hlive hslice.2))
    · have htouched : old.id ∈ ids ∧ isLive ownerId old = true ∧
          (reaches errors.reactivate (.fromMongo old) &&
            (decide ((UrlV2Doc.fromMongo old).status = .expired) &&
              expiryDiffers expireAfter (.fromMongo old))) = true := by
        by_contra hnot
        exact hchanged (by rw [if_neg hnot, if_neg hplainSlice])
      obtain ⟨hi, hlive, hslice⟩ := htouched
      rw [Bool.and_eq_true] at hslice
      exact hcleared _ _ _ _ _ (.inr (mem_pairsOf_slice hold hi hlive hslice.2))

/-! ## bulk_delete -/

/-- The links after a deletion of a slice of those that were left. -/
theorem lookup_delete_slice {p : UrlV2Doc → Bool} {old : UrlRow} (hold : old ∈ urls.docs) :
    (UrlRepository.deleteByIdsAndOwner urls
        (((load urls ids ownerId message).pending.filter p).map (·.id)) ownerId).lookup old.id =
      if old.id ∈ ids ∧ isLive ownerId old = true ∧ p (.fromMongo old) = true then none else some old := by
  have hfound : urls.lookup old.id = some old := lookup_eq_some_iff.2 ⟨hold, rfl⟩
  have hmem := @mem_ids_filter_pending urls ids ownerId message p old hold
  rw [UrlRepository.deleteByIdsAndOwner, lookup_deleteMany, hfound, Option.filter_some,
    UrlRepository.matches_idsAndOwnerFilter]
  by_cases hslice : old.id ∈ ids ∧ isLive ownerId old = true ∧ p (.fromMongo old) = true
  · have howner : old.ownerId = ownerId := by
      have hlive := hslice.2.1
      simp only [isLive, Bool.and_eq_true, decide_eq_true_eq] at hlive
      exact hlive.1
    rw [if_pos hslice]
    simp [hmem.2 hslice, howner]
  · rw [if_neg hslice]
    simp [mt hmem.1 hslice]

/-- The re-query finds the documents that the failed write has not reached. -/
theorem mem_survivors {reached : ObjectId → Bool} {doc : UrlV2Doc}
    (hdoc : doc ∈ (load urls ids ownerId message).pending) :
    doc.id ∈ (UrlRepository.findByIdsAndOwner (UrlRepository.deleteByIdsAndOwner urls
        (((load urls ids ownerId message).pending.filter (reached ·.id)).map (·.id)) ownerId)
          ((load urls ids ownerId message).pending.map (·.id)) ownerId).map (·.id) ↔
      reached doc.id = false := by
  obtain ⟨hi, hfound⟩ := mem_pending_load_iff.1 hdoc
  obtain ⟨row, hrow, hlive, rfl⟩ := liveDoc_eq_some_iff.1 hfound
  obtain ⟨hmem, -⟩ := lookup_eq_some_iff.1 hrow
  have hleft := @lookup_delete_slice urls ids ownerId message (fun doc => reached doc.id) row hmem
  have hrowid : (UrlV2Doc.fromMongo row).id = row.id := rfl
  rw [hrowid] at hi ⊢
  simp only [hi, hlive, hrowid, true_and] at hleft
  rw [UrlRepository.findByIdsAndOwner, List.map_map, List.mem_map]
  constructor
  · rintro ⟨d, hd, hid⟩
    have hd' := lookup_eq_some_iff.2 ⟨(List.mem_filter.1 hd).1, hid⟩
    by_contra hreached
    rw [Bool.not_eq_false] at hreached
    rw [if_pos hreached] at hleft
    cases hleft.symm.trans hd'
  · intro hspared
    rw [if_neg (by simp [hspared])] at hleft
    refine ⟨row, List.mem_filter.2 ⟨(lookup_eq_some_iff.1 hleft).1, ?_⟩, rfl⟩
    have howner : row.ownerId = ownerId := by
      simp only [isLive, Bool.and_eq_true, decide_eq_true_eq] at hlive
      exact hlive.1
    have hasked : row.id ∈ (load urls ids ownerId message).pending.map (·.id) :=
      List.mem_map.2 ⟨.fromMongo row, hdoc, rfl⟩
    simp only [UrlRepository.matches_idsAndOwnerFilter, hasked, howner, decide_true, Bool.and_self]

/-- What a deletion owes: the links it removes are gone, under keys that are cleared. -/
theorem accounted_delete {judged : UrlV2Doc → Option BulkUrlResultRow} {batch : BulkBatch}
    (h : Judged urls ids ownerId message judged batch) (final : UrlV2Doc → BulkUrlResultRow)
    (p : UrlV2Doc → Bool) (hfinal : ∀ doc, judged doc = some (final doc))
    (hid : ∀ doc, (final doc).id = toString doc.id) (hok : ∀ doc, (final doc).ok = true → p doc = true)
    {cleared : List (String × String)} (hcleared : ∀ old ∈ urls.docs, old.id ∈ ids →
      isLive ownerId old = true → p (.fromMongo old) = true → (old.linkAlias, old.domain) ∈ cleared) :
    BulkRun.Accounted (· = none) ids urls
      { report := batch.report
        urls := UrlRepository.deleteByIdsAndOwner urls
          (((load urls ids ownerId message).pending.filter p).map (·.id)) ownerId
        cleared } := by
  refine h.accounted final _ hfinal hid (fun old hold => lookup_delete_slice hold) ?_ ?_ ?_
  · intro old new hnew
    split at hnew
    · cases hnew
    · cases hnew
      rfl
  · intro old hold hi hlive hrow
    exact if_pos ⟨hi, hlive, hok _ hrow⟩
  · intro old hold hchanged
    by_cases hslice : old.id ∈ ids ∧ isLive ownerId old = true ∧ p (.fromMongo old) = true
    · exact hcleared old hold hslice.1 hslice.2.1 hslice.2.2
    · exact absurd (if_neg hslice) hchanged

/-- A deletion that goes through accounts for what it does. -/
theorem accounted_okAll_delete :
    BulkRun.Accounted (· = none) ids urls
      { report := ((load urls ids ownerId message).okAll (load urls ids ownerId message).pending).report
        urls := UrlRepository.deleteByIdsAndOwner urls
          ((load urls ids ownerId message).pending.map (·.id)) ownerId
        cleared := pairsOf (load urls ids ownerId message).pending } := by
  have hloaded : Judged urls ids ownerId message _ _ := judged_load
  have hall : (load urls ids ownerId message).pending =
      (load urls ids ownerId message).pending.filter fun _ => true := by simp
  rw [hall]
  exact accounted_delete (hloaded.assignAll (fun _ => true) okRow) okRow (fun _ => true)
    (fun _ => rfl) (fun _ => rfl) (fun _ _ => rfl)
    fun old hold hi hlive _ => mem_pairsOf_slice hold hi hlive rfl

/-- A deletion that failed accounts for what it did exactly if the links can be looked up again, or it
removed none of them. -/
theorem accounted_attributeDeleteFailure_iff {reached : ObjectId → Bool} :
    (attributeDeleteFailure errors (load urls ids ownerId message) (load urls ids ownerId message).pending
        ownerId (UrlRepository.deleteByIdsAndOwner urls
          (((load urls ids ownerId message).pending.filter (reached ·.id)).map (·.id)) ownerId)).Accounted
        (· = none) ids urls ↔
      (errors.requery = true → ∀ row ∈ urls.docs, row.id ∈ ids → isLive ownerId row = true →
        reached row.id = false) := by
  have hloaded : Judged urls ids ownerId message _ _ := judged_load
  unfold attributeDeleteFailure
  by_cases hrequery : errors.requery = true
  · rw [if_pos hrequery]
    constructor
    · intro haccounted _ row hrow hi hlive
      by_contra hreached
      rw [Bool.not_eq_false] at hreached
      have hgone := @lookup_delete_slice urls ids ownerId message (fun doc => reached doc.id) row hrow
      rw [if_pos ⟨hi, hlive, hreached⟩] at hgone
      have hcleared := (haccounted.cleared row hrow (by rw [hgone]; simp)).1
      cases hcleared
    · intro hspared
      let final := fun doc : UrlV2Doc => refusedRow doc.id "not_attempted"
        "Processing aborted before completion" (some doc.linkAlias)
      have hall : (load urls ids ownerId message).pending =
          (load urls ids ownerId message).pending.filter fun _ => true := by simp
      have hjudged := hloaded.assignAll (fun _ => true) final
      rw [← hall] at hjudged
      refine accounted_delete hjudged final (fun doc => reached doc.id) (fun _ => rfl) (fun _ => rfl)
        (fun _ hok => by cases hok) fun old hold hi hlive hreached => ?_
      cases (hspared hrequery old hold hi hlive).symm.trans hreached
  · rw [if_neg hrequery]
    refine iff_of_true ?_ fun h => absurd h hrequery
    let survivors := (UrlRepository.findByIdsAndOwner (UrlRepository.deleteByIdsAndOwner urls
      (((load urls ids ownerId message).pending.filter (reached ·.id)).map (·.id)) ownerId)
      ((load urls ids ownerId message).pending.map (·.id)) ownerId).map (·.id)
    have hgone : (load urls ids ownerId message).pending.filter (·.id ∉ survivors) =
        (load urls ids ownerId message).pending.filter (reached ·.id) :=
      List.filter_congr fun doc hdoc => by simp [survivors, mem_survivors hdoc]
    have hleft : (load urls ids ownerId message).pending.filter (·.id ∈ survivors) =
        (load urls ids ownerId message).pending.filter (!reached ·.id) :=
      List.filter_congr fun doc hdoc => by simp [survivors, mem_survivors hdoc]
    dsimp only
    rw [hgone, hleft]
    have hjudged := (hloaded.assignAll (fun doc => reached doc.id) okRow).assignAll
      (fun doc => !reached doc.id)
      (fun doc => refusedRow doc.id "internal" internalMsg (some doc.linkAlias))
    refine accounted_delete hjudged (fun doc => if reached doc.id then okRow doc
      else refusedRow doc.id "internal" internalMsg (some doc.linkAlias)) (fun doc => reached doc.id)
      (fun doc => ?_) (fun doc => ?_) (fun doc hok => ?_)
      fun old hold hi hlive hreached => mem_pairsOf_slice hold hi hlive hreached
    · by_cases hreached : reached doc.id = true <;> simp [hreached]
    · split <;> rfl
    · by_contra hreached
      simp [hreached, refusedRow] at hok

/-- A deletion accounts for what it does exactly if the re-query does not fail after a failed write that
removed something. -/
theorem accounted_bulkDelete_iff :
    (bulkDeleteUnder errors ids ownerId urls).Accounted (· = none) ids urls ↔
      (errors.load = false → ∀ reached ∈ errors.write, errors.requery = true →
        ∀ row ∈ urls.docs, row.id ∈ ids → isLive ownerId row = true → reached row.id = false) := by
  have hremoved := @accounted_okAll_delete urls ids ownerId "Cannot delete a blocked URL"
  unfold bulkDeleteUnder
  by_cases hload : errors.load = true
  · rw [if_pos hload]
    exact iff_of_true (BulkRun.accounted_of_raise rfl rfl) fun h => by simp [hload] at h
  rw [if_neg hload]
  dsimp only
  by_cases hnone : (load urls ids ownerId "Cannot delete a blocked URL").pending = []
  · rw [if_pos hnone]
    rw [hnone, List.map_nil, deleteByIdsAndOwner_nil] at hremoved
    refine iff_of_true hremoved fun _ reached _ _ row hrow hi hlive => ?_
    have hpending := @mem_pairsOf_slice urls ids ownerId "Cannot delete a blocked URL" (fun _ => true) row
      hrow hi hlive rfl
    rw [hnone] at hpending
    cases hpending
  rw [if_neg hnone]
  cases errors.write with
  | none => exact iff_of_true hremoved fun _ reached hreached => by cases hreached
  | some reached =>
    refine accounted_attributeDeleteFailure_iff.trans ⟨?_, fun h => h (by simpa using hload) reached rfl⟩
    rintro h _ _ ⟨⟩
    exact h

end

/-! ## bulk_move_domain -/

section

variable {urls : UrlStore} {ids : List ObjectId} {ownerId i : ObjectId} {errors : DatabaseErrors}
  {env : UpdateEnv} {envOn : UrlStore → UpdateEnv} {domain : Option String} {target : String} {now : Int}
  {m m' : MovingState} {doc : UrlV2Doc} {batch : BulkBatch} {message : String}

/-- The keys that a move clears: those of failed items at once, the others at its end. -/
def movingKeys (target : String) (m : MovingState) : List (String × String) :=
  m.cleared ++ m.moved.flatMap (moveKeys target)

/-- An item of a move asks whether its alias is free. -/
def AsksFree (env : UpdateEnv) (target : String) (m : MovingState) (doc : UrlV2Doc) : Prop :=
  doc.domain ≠ target ∧
    ¬(target = env.systemDefaultDomain ∧ env.isReservedAlias doc.linkAlias = true) ∧
    doc.linkAlias ∉ m.claimed

theorem moveItemUnder_eq_error_iff : moveItemUnder errors env target ownerId now m doc = .error m' ↔
    m' = m ∧ AsksFree env target m doc ∧ errors.check doc.id = true := by
  unfold moveItemUnder AsksFree
  dsimp only
  by_cases hsame : doc.domain = target
  · simp [hsame]
  rw [if_neg hsame]
  by_cases hreserved : target = env.systemDefaultDomain ∧ env.isReservedAlias doc.linkAlias = true
  · simp [hreserved]
  rw [if_neg hreserved]
  by_cases hclaimed : doc.linkAlias ∈ m.claimed
  · simp [hclaimed]
  rw [if_neg hclaimed]
  by_cases hcheck : errors.check doc.id = true
  · rw [if_pos hcheck, Except.error.injEq]
    exact ⟨fun h => ⟨h.symm, ⟨hsame, hreserved, hclaimed⟩, hcheck⟩, fun h => h.1.symm⟩
  · rw [if_neg hcheck]
    refine iff_of_false (fun h => ?_) fun h => hcheck h.2.2
    repeat' split at h
    all_goals cases h

/-- An item of a move whose write is carried out. -/
def Writes (errors : DatabaseErrors) (env : UpdateEnv) (target : String) (ownerId : ObjectId) (now : Int)
    (m : MovingState) (doc : UrlV2Doc) : Prop :=
  AsksFree env target m doc ∧ errors.check doc.id = false ∧
    env.aliasAvailable doc.linkAlias target = true ∧
    (errors.move doc.id = none ∨ errors.move doc.id = some (.lost true)) ∧
    (UrlRepository.updateByIdsAndOwner m.urls [doc.id] ownerId (moveOps target now).toUpdate).isSome = true

/-- An item that is not written leaves the links, and is a success only on the target. -/
theorem moveItemUnder_of_not_writes (hnot : ¬Writes errors env target ownerId now m doc)
    (h : moveItemUnder errors env target ownerId now m doc = .ok m') :
    m'.urls = m.urls ∧ movingKeys target m ⊆ movingKeys target m' ∧
      ∃ answer, m'.batch = { m.batch with rows := m.batch.rows.assign doc.id answer } ∧
        answer.id = toString doc.id ∧ (answer.ok = true → doc.domain = target) := by
  have refused {code text : String} (hbatch : m'.batch = m.batch.reject doc.id code text
      (some doc.linkAlias)) : ∃ answer,
      m'.batch = { m.batch with rows := m.batch.rows.assign doc.id answer } ∧
      answer.id = toString doc.id ∧ (answer.ok = true → doc.domain = target) :=
    ⟨_, hbatch, rfl, fun hok => by cases hok⟩
  unfold moveItemUnder at h
  dsimp only at h
  by_cases hsame : doc.domain = target
  · rw [if_pos hsame] at h
    cases h
    exact ⟨rfl, List.Subset.refl _, _, rfl, rfl, fun _ => hsame⟩
  rw [if_neg hsame] at h
  by_cases hreserved : target = env.systemDefaultDomain ∧ env.isReservedAlias doc.linkAlias = true
  · rw [if_pos hreserved] at h
    cases h
    exact ⟨rfl, List.Subset.refl _, refused rfl⟩
  rw [if_neg hreserved] at h
  by_cases hclaimed : doc.linkAlias ∈ m.claimed
  · rw [if_pos hclaimed] at h
    cases h
    exact ⟨rfl, List.Subset.refl _, refused rfl⟩
  rw [if_neg hclaimed] at h
  by_cases hcheck : errors.check doc.id = true
  · rw [if_pos hcheck] at h
    cases h
  rw [if_neg hcheck] at h
  by_cases hfree : env.aliasAvailable doc.linkAlias target = true
  · have hwrite : errors.move doc.id = none ∨ errors.move doc.id = some (.lost true) →
        UrlRepository.updateByIdsAndOwner m.urls [doc.id] ownerId (moveOps target now).toUpdate = none := by
      intro hmove
      rw [← Option.not_isSome_iff_eq_none]
      intro hsome
      exact hnot ⟨⟨hsame, hreserved, hclaimed⟩, by simpa using hcheck, hfree, hmove, hsome⟩
    rw [if_neg (by simp [hfree])] at h
    have hkeys : movingKeys target m ⊆
        (m.cleared ++ moveKeys target doc) ++ m.moved.flatMap (moveKeys target) := by
      intro pair hpair
      simp only [movingKeys, List.mem_append] at hpair ⊢
      tauto
    cases hmove : errors.move doc.id with
    | none =>
      rw [hmove] at h
      have hnone : UrlRepository.updateByIdsAndOwner m.urls [doc.id] ownerId
        ({ domain := some target, updatedAt := some now } : UrlOps).toUpdate = none := hwrite (.inl hmove)
      rw [hnone] at h
      cases h
      exact ⟨rfl, List.Subset.refl _, refused rfl⟩
    | some error =>
      rw [hmove] at h
      cases error with
      | duplicateKey =>
        cases h
        exact ⟨rfl, List.Subset.refl _, refused rfl⟩
      | lost applied =>
        cases h
        refine ⟨?_, hkeys, refused rfl⟩
        cases applied with
        | false => rfl
        | true => exact congrArg (·.getD m.urls) (hwrite (.inr hmove))
  · rw [if_pos (by simp [hfree])] at h
    cases h
    exact ⟨rfl, List.Subset.refl _, refused rfl⟩

/-- An item that is written goes through, whether or not it is answered for, and both its keys are to be
cleared. -/
theorem moveItemUnder_of_writes (hwrites : Writes errors env target ownerId now m doc)
    (h : moveItemUnder errors env target ownerId now m doc = .ok m') :
    UrlRepository.updateByIdsAndOwner m.urls [doc.id] ownerId (moveOps target now).toUpdate =
        some m'.urls ∧
      movingKeys target m ⊆ movingKeys target m' ∧ moveKeys target doc ⊆ movingKeys target m' ∧
      ∃ answer, m'.batch = { m.batch with rows := m.batch.rows.assign doc.id answer } ∧
        answer.id = toString doc.id := by
  obtain ⟨⟨hsame, hreserved, hclaimed⟩, hcheck, hfree, hmove, hsome⟩ := hwrites
  obtain ⟨after, hwrite⟩ := Option.isSome_iff_exists.1 hsome
  have hafter : UrlRepository.updateByIdsAndOwner m.urls [doc.id] ownerId
    ({ domain := some target, updatedAt := some now } : UrlOps).toUpdate = some after := hwrite
  unfold moveItemUnder at h
  dsimp only at h
  rw [if_neg hsame, if_neg hreserved, if_neg hclaimed, if_neg (by simp [hcheck]),
    if_neg (by simp [hfree]), hafter] at h
  rcases hmove with hmove | hmove
  · rw [hmove] at h
    cases h
    refine ⟨hwrite, fun pair hpair => ?_, fun pair hpair => ?_, _, rfl, rfl⟩
    · simp only [movingKeys, List.flatMap_append, List.mem_append] at hpair ⊢
      tauto
    · simp only [movingKeys, List.flatMap_append, List.mem_append, List.flatMap_cons, List.flatMap_nil,
        List.append_nil]
      tauto
  · rw [hmove] at h
    cases h
    refine ⟨hwrite, fun pair hpair => ?_, fun pair hpair => ?_, _, rfl, rfl⟩
    all_goals
      simp only [movingKeys, List.mem_append] at hpair ⊢
      tauto

/-- An item is its own link's affair. -/
theorem lookup_moveItemUnder_of_ne {j : ObjectId} (hj : j ≠ doc.id)
    (h : moveItemUnder errors env target ownerId now m doc = .ok m') :
    m'.urls.lookup j = m.urls.lookup j := by
  by_cases hwrites : Writes errors env target ownerId now m doc
  · rw [lookup_updateManyUnique (moveItemUnder_of_writes hwrites h).1]
    cases hother : m.urls.lookup j with
    | none => rfl
    | some d =>
      have hdj : d.id = j := (lookup_eq_some_iff.1 hother).2
      have hne : d.id ≠ doc.id := fun hsame => hj (hdj.symm.trans hsame)
      rw [Option.map_some, applyWhere_of_not_matches _ (by simp [hne])]
  · rw [(moveItemUnder_of_not_writes hwrites h).1]

theorem lookup_moveItemUnder_of_writes {row : UrlRow} (hfound : m.urls.lookup row.id = some row)
    (howner : row.ownerId = ownerId) (hwrites : Writes errors env target ownerId now m (.fromMongo row))
    (h : moveItemUnder errors env target ownerId now m (.fromMongo row) = .ok m') :
    m'.urls.lookup row.id = some ((moveOps target now).toUpdate.apply row) := by
  have hdocid : (UrlV2Doc.fromMongo row).id = row.id := rfl
  rw [lookup_updateManyUnique (moveItemUnder_of_writes hwrites h).1, hfound, Option.map_some,
    applyWhere_of_matches _ (by simp [howner, hdocid])]

/-- What holds while a batch is moved, with the items `done` behind it. -/
structure Moving (urls : UrlStore) (target : String) (done : List UrlV2Doc) (batch : BulkBatch)
    (m : MovingState) : Prop where
  order : m.batch.order = batch.order
  others : ∀ i, i ∉ done.map (·.id) → m.batch.rows.get? i = batch.rows.get? i
  rows : ∀ doc ∈ done, ∃ answer, m.batch.rows.get? doc.id = some answer ∧
    answer.id = toString doc.id ∧
    (answer.ok = true → ∃ row ∈ m.urls.lookup doc.id, row.domain = target)
  /-- A link is as it was, or it has gone to the target and both its keys are to be cleared. -/
  links : ∀ old ∈ urls.docs, m.urls.lookup old.id = some old ∨ old.id ∈ done.map (·.id) ∧
    ∃ new, m.urls.lookup old.id = some new ∧ new.linkAlias = old.linkAlias ∧ new.domain = target ∧
      (old.linkAlias, old.domain) ∈ movingKeys target m ∧
      (old.linkAlias, target) ∈ movingKeys target m

theorem Moving.start (batch : BulkBatch) : Moving urls target [] batch { batch, urls } where
  order := rfl
  others _ _ := rfl
  rows _ h := by cases h
  links old hold := .inl (lookup_eq_some_iff.2 ⟨hold, rfl⟩)

/-- An item that goes through. -/
theorem Moving.step {done : List UrlV2Doc} {row : UrlRow} (h : Moving urls target done batch m)
    (hrow : row ∈ urls.docs) (howner : row.ownerId = ownerId) (hnew : row.id ∉ done.map (·.id))
    (hitem : moveItemUnder errors env target ownerId now m (.fromMongo row) = .ok m') :
    Moving urls target (done ++ [.fromMongo row]) batch m' := by
  have hdocid : (UrlV2Doc.fromMongo row).id = row.id := rfl
  have hfound : m.urls.lookup row.id = some row := by
    rcases h.links row hrow with hsame | ⟨hdone, -⟩
    · exact hsame
    · exact absurd hdone hnew
  have hothers (j : ObjectId) (hj : j ≠ row.id) : m'.urls.lookup j = m.urls.lookup j :=
    lookup_moveItemUnder_of_ne (hdocid ▸ hj) hitem
  obtain ⟨hkeys, answer, hbatch, hid, hself⟩ : movingKeys target m ⊆ movingKeys target m' ∧
      ∃ answer, m'.batch = { m.batch with rows := m.batch.rows.assign row.id answer } ∧
        answer.id = toString row.id ∧
        (m'.urls.lookup row.id = some row ∧ (answer.ok = true → row.domain = target) ∨
          m'.urls.lookup row.id = some ((moveOps target now).toUpdate.apply row) ∧
            moveKeys target (.fromMongo row) ⊆ movingKeys target m') := by
    by_cases hwrites : Writes errors env target ownerId now m (.fromMongo row)
    · obtain ⟨-, hkeys, hcleared, answer, hbatch, hid⟩ := moveItemUnder_of_writes hwrites hitem
      exact ⟨hkeys, answer, hbatch, hid,
        .inr ⟨lookup_moveItemUnder_of_writes hfound howner hwrites hitem, hcleared⟩⟩
    · obtain ⟨hurls, hkeys, answer, hbatch, hid, hok⟩ := moveItemUnder_of_not_writes hwrites hitem
      rw [hurls]
      exact ⟨hkeys, answer, hbatch, hid, .inl ⟨hfound, hok⟩⟩
  have hother {i : ObjectId} (hi : i ∈ done.map (·.id)) : i ≠ row.id := fun hsame => hnew (hsame ▸ hi)
  constructor
  · rw [hbatch]
    exact h.order
  · intro i hi
    rw [List.map_append, List.mem_append, not_or, List.map_singleton, List.mem_singleton] at hi
    have hne : i ≠ row.id := hi.2
    rw [hbatch, PyDict.get?_assign, if_neg (Ne.symm hne)]
    exact h.others i hi.1
  · intro doc hdoc
    rw [List.mem_append, List.mem_singleton] at hdoc
    rcases hdoc with hdoc | rfl
    · have hne : doc.id ≠ row.id := hother (List.mem_map_of_mem hdoc)
      rw [hbatch, PyDict.get?_assign, if_neg (Ne.symm hne), hothers doc.id hne]
      exact h.rows doc hdoc
    · rw [hdocid]
      refine ⟨answer, by rw [hbatch, PyDict.get?_assign, if_pos rfl], hid, fun hok => ?_⟩
      rcases hself with ⟨hsame, hdomain⟩ | ⟨hmoved, -⟩
      · exact ⟨row, hsame, hdomain hok⟩
      · exact ⟨_, hmoved, rfl⟩
  · intro old hold
    by_cases hsame : old.id = row.id
    · have heq : old = row := List.inj_on_of_nodup_map urls.nodup_id hold hrow hsame
      subst heq
      rcases hself with ⟨hsame, -⟩ | ⟨hmoved, hcleared⟩
      · exact .inl hsame
      · refine .inr ⟨by simp [UrlV2Doc.fromMongo], _, hmoved, rfl, rfl, hcleared ?_, hcleared ?_⟩
        · exact List.mem_cons_self
        · exact List.mem_cons_of_mem _ List.mem_cons_self
    · rw [hothers old.id hsame]
      rcases h.links old hold with hkept | ⟨hdone, new, hnew, halias, hdomain, hfrom, hto⟩
      · exact .inl hkept
      · refine .inr ⟨?_, new, hnew, halias, hdomain, hkeys hfrom, hkeys hto⟩
        rw [List.map_append]
        exact List.mem_append_left _ hdone

/-- The items of a move that go through. -/
theorem Moving.run {docs done : List UrlV2Doc} (h : Moving urls target done batch m)
    (hdocs : ∀ doc ∈ docs, ∃ row ∈ urls.docs, row.ownerId = ownerId ∧ doc = .fromMongo row)
    (hids : ((done ++ docs).map (·.id)).Nodup)
    (hrun : docs.foldlM (fun m doc => moveItemUnder errors (envOn m.urls) target ownerId now m doc) m =
      .ok m') : Moving urls target (done ++ docs) batch m' := by
  induction docs generalizing done m with
  | nil =>
    cases hrun
    rw [List.append_nil]
    exact h
  | cons doc docs ih =>
    rw [List.foldlM_cons, bind_eq_ok] at hrun
    obtain ⟨mid, hitem, hrun⟩ := hrun
    obtain ⟨row, hrow, howner, rfl⟩ := hdocs doc List.mem_cons_self
    have hnew : row.id ∉ done.map (·.id) := by
      rw [List.map_append, List.map_cons, List.nodup_append] at hids
      intro hmem
      exact hids.2.2 _ hmem _ List.mem_cons_self rfl
    rw [List.append_cons]
    refine ih (h.step hrow howner hnew hitem) (fun doc hdoc => hdocs doc (List.mem_cons_of_mem _ hdoc)) ?_
      hrun
    rw [← List.append_cons]
    exact hids

/-- A move that runs to its end accounts for what it did. -/
theorem Moving.accounted (h : Moving urls target (load urls ids ownerId message).pending
    (load urls ids ownerId message) m) :
    BulkRun.Accounted (fun found => ∃ row ∈ found, row.domain = target) ids urls
      { report := m.batch.report, urls := m.urls, cleared := movingKeys target m } := by
  have horder : m.batch.order = ids.eraseDups := h.order.trans load_spec.1
  have hanswer : ∀ i ∈ ids, ∃ answer, m.batch.rows.get? i = some answer ∧ answer.id = toString i ∧
      (answer.ok = true → ∃ row ∈ m.urls.lookup i, row.domain = target) := by
    intro i hi
    cases hlive : liveDoc urls ownerId i with
    | none =>
      have hother : i ∉ (load urls ids ownerId message).pending.map (·.id) := by
        rw [List.mem_map]
        rintro ⟨doc, hdoc, rfl⟩
        cases hlive.symm.trans (mem_pending_load_iff.1 hdoc).2
      have hloaded : (load urls ids ownerId message).rows.get? i =
        loadRow message i (ownedDoc urls ownerId i) := get?_load hi
      obtain ⟨code, text, linkAlias, hrefused⟩ := @loadRow_of_liveDoc _ _ message _ hlive
      exact ⟨_, (h.others i hother).trans (hloaded.trans hrefused), rfl, fun hok => by cases hok⟩
    | some doc =>
      have hid : doc.id = i := id_of_liveDoc hlive
      subst hid
      exact h.rows doc (mem_pending_load_iff.2 ⟨hi, hlive⟩)
  obtain ⟨row, hreport, hrow⟩ := report_of_rows horder hanswer
  refine ⟨fun hnone => ?_, ?_, fun old hold hchanged => ?_⟩
  · rw [hreport] at hnone
    cases hnone
  · rw [hreport]
    rintro report ⟨⟩
    exact ⟨row, rfl, hrow⟩
  · rcases h.links old hold with hsame | ⟨-, new, hnew, halias, hdomain, hfrom, hto⟩
    · exact absurd hsame hchanged
    · refine ⟨hfrom, fun other hother => ?_⟩
      cases hnew.symm.trans hother
      rw [halias, hdomain]
      exact hto

/-- Where no item is written, the links stay as they are. -/
theorem urls_of_not_writes {docs : List UrlV2Doc}
    (hidle : ∀ before item after b, docs = before ++ item :: after →
      before.foldlM (fun m doc => moveItemUnder errors (envOn m.urls) target ownerId now m doc) m = .ok b →
      ¬Writes errors (envOn b.urls) target ownerId now b item)
    (hrun : docs.foldlM (fun m doc => moveItemUnder errors (envOn m.urls) target ownerId now m doc) m =
      .ok m') : m'.urls = m.urls := by
  induction docs generalizing m with
  | nil =>
    cases hrun
    rfl
  | cons doc docs ih =>
    rw [List.foldlM_cons, bind_eq_ok] at hrun
    obtain ⟨mid, hitem, hrun⟩ := hrun
    have hsame : mid.urls = m.urls := (moveItemUnder_of_not_writes (hidle [] doc docs m rfl rfl) hitem).1
    rw [← hsame]
    refine ih (fun before item after b hsplit hbefore => ?_) hrun
    refine hidle (doc :: before) item after b (congrArg (doc :: ·) hsplit) ?_
    rw [List.foldlM_cons, hitem]
    exact hbefore

/-- A link that is written stays so for the rest of the batch. -/
theorem lookup_of_writes {row : UrlRow} {docs : List UrlV2Doc} (hfound : m.urls.lookup row.id = some row)
    (howner : row.ownerId = ownerId)
    (hwrites : Writes errors (envOn m.urls) target ownerId now m (.fromMongo row))
    (hids : row.id ∉ docs.map (·.id))
    (hrun : (UrlV2Doc.fromMongo row :: docs).foldlM
      (fun m doc => moveItemUnder errors (envOn m.urls) target ownerId now m doc) m = .ok m') :
    m'.urls.lookup row.id = some ((moveOps target now).toUpdate.apply row) := by
  rw [List.foldlM_cons, bind_eq_ok] at hrun
  obtain ⟨mid, hitem, hrun⟩ := hrun
  have hmid := lookup_moveItemUnder_of_writes hfound howner hwrites hitem
  refine foldlM_invariant (P := fun m => m.urls.lookup row.id = some _) (fun doc hdoc a b ha hstep => ?_)
    hmid hrun
  have hne : row.id ≠ doc.id := fun hsame => hids (List.mem_map.2 ⟨doc, hdoc, hsame.symm⟩)
  rw [lookup_moveItemUnder_of_ne hne hstep]
  exact ha

/-- A batch that has written an item has changed the links. -/
theorem docs_ne_of_writes {before middle : List UrlV2Doc} {item : UrlV2Doc}
    (hdocs : ∀ doc ∈ before ++ item :: middle, ∃ row ∈ urls.docs, row.ownerId = ownerId ∧
      doc = .fromMongo row)
    (hids : ((before ++ item :: middle).map (·.id)).Nodup)
    (hbefore : before.foldlM
      (fun m doc => moveItemUnder errors (envOn m.urls) target ownerId now m doc) { batch, urls } = .ok m)
    (hmiddle : (item :: middle).foldlM
      (fun m doc => moveItemUnder errors (envOn m.urls) target ownerId now m doc) m = .ok m')
    (hwrites : Writes errors (envOn m.urls) target ownerId now m item) :
    m'.urls.docs ≠ urls.docs := by
  obtain ⟨row, hrow, howner, rfl⟩ :=
    hdocs item (List.mem_append_right before List.mem_cons_self)
  rw [List.map_append, List.nodup_append, List.map_cons, List.nodup_cons] at hids
  obtain ⟨hbeforeIds, ⟨hmiddleIds, -⟩, hapart⟩ := hids
  have hmoving : Moving urls target ([] ++ before) batch m :=
    (Moving.start batch).run (fun doc hdoc => hdocs doc (List.mem_append_left _ hdoc)) hbeforeIds hbefore
  have hfound : m.urls.lookup row.id = some row := by
    rcases hmoving.links row hrow with hsame | ⟨hdone, -⟩
    · exact hsame
    · exact absurd rfl (hapart row.id hdone row.id List.mem_cons_self)
  have hwritten := lookup_of_writes hfound howner hwrites hmiddleIds hmiddle
  intro hsame
  have hkept : urls.lookup row.id = some row := lookup_eq_some_iff.2 ⟨hrow, rfl⟩
  rw [lookup_of_docs_eq hsame, hkept, Option.some.injEq] at hwritten
  exact hwrites.1.1 (congrArg UrlRow.domain hwritten)

/-- Once an item of a move is written, no alias check that is still asked fails. -/
def ChecksBeforeWrites (errors : DatabaseErrors) (envOn : UrlStore → UpdateEnv) (ids : List ObjectId)
    (domain : Option String) (ownerId : ObjectId) (now : Int) (urls : UrlStore) : Prop :=
  let target := targetDomain (envOn urls) domain
  let batch := load urls ids ownerId "Cannot modify a blocked URL"
  let step := fun m doc => moveItemUnder errors (envOn m.urls) target ownerId now m doc
  ∀ before item middle doc after m m', batch.pending = (before ++ item :: middle) ++ doc :: after →
    before.foldlM step { batch, urls } = .ok m → (item :: middle).foldlM step m = .ok m' →
    Writes errors (envOn m.urls) target ownerId now m item →
    AsksFree (envOn m'.urls) target m' doc → errors.check doc.id = false

/-- A move accounts for what it does exactly if no alias check fails after a write of the batch. -/
theorem accounted_bulkMoveDomain_iff :
    (bulkMoveDomainUnder errors envOn ids domain ownerId now urls).Accounted
        (fun found => ∃ row ∈ found, row.domain = targetDomain (envOn urls) domain) ids urls ↔
      (errors.load = false → ChecksBeforeWrites errors envOn ids domain ownerId now urls) := by
  unfold bulkMoveDomainUnder ChecksBeforeWrites
  by_cases hload : errors.load = true
  · rw [if_pos hload]
    exact iff_of_true (BulkRun.accounted_of_raise rfl rfl) fun h => by simp [hload] at h
  rw [if_neg hload]
  dsimp only
  have hpending : ∀ doc ∈ (load urls ids ownerId "Cannot modify a blocked URL").pending,
      ∃ row ∈ urls.docs, row.ownerId = ownerId ∧ doc = .fromMongo row := by
    intro doc hdoc
    obtain ⟨row, hrow, rfl, -, howner, -⟩ := mem_pending_load.1 hdoc
    exact ⟨row, (lookup_eq_some_iff.1 hrow).1, howner, rfl⟩
  have hnodup := @nodup_pending urls ids ownerId "Cannot modify a blocked URL"
  -- A check that fails at an item ends the loop there.
  have hends {before after : List UrlV2Doc} {doc : UrlV2Doc} {b : MovingState}
      (hsplit : (load urls ids ownerId "Cannot modify a blocked URL").pending = before ++ doc :: after)
      (hbefore : before.foldlM (fun m doc => moveItemUnder errors (envOn m.urls)
        (targetDomain (envOn urls) domain) ownerId now m doc)
        { batch := load urls ids ownerId "Cannot modify a blocked URL", urls } = .ok b)
      (hasks : AsksFree (envOn b.urls) (targetDomain (envOn urls) domain) b doc)
      (hcheck : errors.check doc.id = true) :=
    foldlM_eq_error_iff.2 ⟨before, doc, after, b, hsplit, hbefore,
      moveItemUnder_eq_error_iff.2 ⟨rfl, hasks, hcheck⟩⟩
  cases hrun : (load urls ids ownerId "Cannot modify a blocked URL").pending.foldlM
      (fun m doc => moveItemUnder errors (envOn m.urls) (targetDomain (envOn urls) domain) ownerId now m doc)
      { batch := load urls ids ownerId "Cannot modify a blocked URL", urls } with
  | error m =>
    obtain ⟨before, doc, after, b, hsplit, hbefore, hfail⟩ := foldlM_eq_error_iff.1 hrun
    obtain ⟨rfl, hasks, hcheck⟩ := moveItemUnder_eq_error_iff.1 hfail
    constructor
    · intro haccounted _ before' item middle doc' after' m₁ m₂ hsplit' hbefore' hmiddle hwrites hasks'
      by_contra hcheck'
      rw [Bool.not_eq_false] at hcheck'
      have hreached := foldlM_append_eq_ok.2 ⟨m₁, hbefore', hmiddle⟩
      cases hrun.symm.trans (hends hsplit' hreached hasks' hcheck')
      have hitems : ∀ doc ∈ before' ++ item :: middle, doc ∈ before' ++ item :: middle ++ doc' :: after' :=
        fun doc hdoc => List.mem_append_left _ hdoc
      rw [← hsplit'] at hitems
      rw [hsplit', List.map_append] at hnodup
      exact docs_ne_of_writes (fun doc hdoc => hpending doc (hitems doc hdoc)) hnodup.of_append_left
        hbefore' hmiddle hwrites (haccounted.raised rfl)
    · intro hspared
      refine BulkRun.accounted_of_raise rfl (congrArg Collection.docs ?_)
      refine urls_of_not_writes (fun first item middle b hitems hfirst hwrites => ?_) hbefore
      rw [hitems] at hsplit hbefore
      obtain ⟨b', hfirst', hmiddle⟩ := foldlM_append_eq_ok.1 hbefore
      cases hfirst.symm.trans hfirst'
      have hfine := hspared (by simpa using hload) first item middle doc after b _ hsplit hfirst hmiddle
        hwrites hasks
      cases hfine.symm.trans hcheck
  | ok m =>
    have hmoving : Moving urls (targetDomain (envOn urls) domain) _ _ m :=
      (Moving.start _).run hpending (by simpa using nodup_pending) hrun
    refine iff_of_true hmoving.accounted fun _ before item middle doc after m₁ m₂ hsplit hbefore hmiddle _
      hasks => ?_
    by_contra hcheck
    rw [Bool.not_eq_false] at hcheck
    have hreached := foldlM_append_eq_ok.2 ⟨m₁, hbefore, hmiddle⟩
    cases hrun.symm.trans (hends hsplit hreached hasks hcheck)

end

/-! ## Without errors -/

section

variable {edge : EdgeConfig} {ids : List ObjectId} {ownerId : ObjectId} {now : Int} {s : Stores}

/-- A method that answers as the run does, and leaves its links and its cache. -/
def RunsAs (before : Stores) (run : BulkRun) (report : Option BulkUrlOperationResponse)
    (after : Stores) : Prop :=
  report = run.report ∧ after.urls = run.urls ∧ after.cache = invalidate before.cache run.cleared

theorem bulkDelete_runsAs : RunsAs s (bulkDeleteUnder {} ids ownerId s.urls)
    (bulkDelete edge ids ownerId now s).1.toOption.join (bulkDelete edge ids ownerId now s).2 := by
  simp only [bulkDelete, bulkDeleteCalls, runActions_cons, runActions_nil, writeDelete_eq, purgeChanged,
    invalidateApplied, loadForDelete, answer, bulkDeleteUnder]
  by_cases hnone : (load s.urls ids ownerId "Cannot delete a blocked URL").pending = []
  · simp only [hnone]
    exact ⟨rfl, deleteByIdsAndOwner_nil, rfl⟩
  · simp only [if_neg hnone]
    exact ⟨rfl, rfl, congrArg (invalidate s.cache ∘ pairsOf) (List.append_nil _)⟩

theorem bulkSetStatus_runsAs (status : OwnerStatus) :
    RunsAs s (bulkSetStatusUnder {} ids status ownerId now s.urls)
      (bulkSetStatus edge ids status ownerId now s).1.toOption.join
      (bulkSetStatus edge ids status ownerId now s).2 := by
  have hedge (v : BulkVars) (s : Stores) : (statusEdge edge status now v s).1 = v ∧
      (statusEdge edge status now v s).2.urls = s.urls ∧
      (statusEdge edge status now v s).2.cache = s.cache := by
    cases status <;> exact ⟨rfl, rfl, rfl⟩
  simp only [bulkSetStatus, bulkSetStatusCalls, runActions_cons, runActions_nil, hedge, RunsAs,
    writeChanged_eq (keepsKey_statusOps status), invalidateApplied, loadForStatus, answer,
    bulkSetStatusUnder, applyUpdateUnder_none (keepsKey_statusOps status)]
  exact ⟨rfl, rfl, congrArg (invalidate s.cache ∘ pairsOf) (List.append_nil _)⟩

/-- A value that is not in the future is the error, and nothing is done. -/
theorem bulkSetExpiry_runsAs (expireAfter : Option Int) :
    RunsAs s (bulkSetExpiryUnder {} ids expireAfter ownerId now s.urls)
      (bulkSetExpiry edge ids expireAfter ownerId now s).1.toOption.join
      (bulkSetExpiry edge ids expireAfter ownerId now s).2 := by
  by_cases hpast : expireAfter.any (· ≤ now) = true
  · simp only [bulkSetExpiry, bulkSetExpiryCalls, runActions_cons, runActions_nil, loadForExpiry, hpast,
      if_true, writeChanged, writeReactivate, invalidateApplied, expiryEdge, answer, bulkSetExpiryUnder,
      true_or]
    exact ⟨rfl, rfl, rfl⟩
  · simp only [bulkSetExpiry, bulkSetExpiryCalls, runActions_cons, runActions_nil, loadForExpiry, hpast,
      if_false, writeChanged_eq (keepsKey_plainOps expireAfter), Bool.false_eq_true, false_or,
      writeReactivate_eq (keepsKey_reactOps expireAfter), invalidateApplied, expiryEdge, answer,
      bulkSetExpiryUnder, applyUpdateUnder_none (keepsKey_plainOps expireAfter),
      applyUpdateUnder_none (keepsKey_reactOps expireAfter)]
    exact ⟨rfl, rfl, rfl⟩

theorem moveItemUnder_none (env : UpdateEnv) (target : String) (m : MovingState) (doc : UrlV2Doc) :
    moveItemUnder {} env target ownerId now m doc =
      .ok { m with toMoveState := moveItem env target ownerId now m.toMoveState doc } := by
  unfold moveItemUnder moveItem
  dsimp only
  by_cases hsame : doc.domain = target
  · rw [if_pos hsame, if_pos hsame]
  rw [if_neg hsame, if_neg hsame]
  by_cases hreserved : target = env.systemDefaultDomain ∧ env.isReservedAlias doc.linkAlias = true
  · rw [if_pos hreserved, if_pos hreserved]
  rw [if_neg hreserved, if_neg hreserved]
  by_cases hclaimed : doc.linkAlias ∈ m.claimed
  · rw [if_pos hclaimed, if_pos (.inl hclaimed)]
  rw [if_neg hclaimed]
  simp only [Bool.false_eq_true, if_false, hclaimed, false_or]
  by_cases havailable : env.aliasAvailable doc.linkAlias target = true
  · cases UrlRepository.updateByIdsAndOwner m.urls [doc.id] ownerId
        ({ domain := some target, updatedAt := some now } : UrlOps).toUpdate <;>
      simp [havailable]
  · simp [havailable]

/-- Without errors, the loop is the one of the method. -/
theorem foldlM_moveItemUnder_none (envOn : UrlStore → UpdateEnv) (target : String) (docs : List UrlV2Doc)
    (m : MovingState) :
    docs.foldlM (fun m doc => moveItemUnder {} (envOn m.urls) target ownerId now m doc) m =
      .ok { m with
        toMoveState := docs.foldl (fun m => moveItem (envOn m.urls) target ownerId now m) m.toMoveState } := by
  induction docs generalizing m with
  | nil => rfl
  | cons doc docs ih =>
    rw [List.foldlM_cons, moveItemUnder_none, List.foldl_cons]
    exact ih _

theorem bulkMoveDomain_runsAs (cfg : AliasConfig) (env : UpdateEnv) (domain : Option String) :
    RunsAs s
      (bulkMoveDomainUnder {} (fun urls => env.onStores cfg { s with urls }) ids domain ownerId now s.urls)
      (bulkMoveDomain (env.onStores cfg s) edge ids domain ownerId now s).1.report
      (bulkMoveDomain (env.onStores cfg s) edge ids domain ownerId now s).2 := by
  have hsame : { s with urls := s.urls } = s := rfl
  have hrun := @foldlM_moveItemUnder_none ownerId now (fun urls => env.onStores cfg { s with urls })
    (targetDomain (env.onStores cfg s) domain)
    (load s.urls ids ownerId "Cannot modify a blocked URL").pending
    { batch := load s.urls ids ownerId "Cannot modify a blocked URL", urls := s.urls }
  dsimp only at hrun
  unfold bulkMoveDomain bulkMoveDomainUnder
  dsimp only
  rw [hsame, hrun, ← foldl_moveItem_onStores]
  exact ⟨rfl, rfl, rfl⟩

end

/-! ## The redirect cache -/

/-- What a run has cleared is not in the cache. -/
theorem entries_invalidate {pairs : List (String × String)} {linkAlias domain : String}
    (cache : UrlCache) (h : (linkAlias, domain) ∈ pairs) :
    (invalidate cache pairs).entries (UrlCache.key linkAlias domain) = none := by
  rw [Option.eq_none_iff_forall_ne_some]
  intro data hdata
  have hgroups := ((SafetyEnforcer.entries_foldl_invalidateMany _ _).1 hdata).2
  have hmem := (@SafetyEnforcer.mem_foldl_appendUnder linkAlias domain _ Prod.snd Prod.fst pairs
    PyDict.empty).2 (.inr ⟨_, h, rfl, rfl⟩)
  cases hgroup : (pairs.foldl (fun d pair => SafetyEnforcer.appendUnder d pair.2 pair.1)
      PyDict.empty).get? domain with
  | none =>
    rw [hgroup] at hmem
    cases hmem
  | some group =>
    rw [hgroup] at hmem
    exact hgroups _ (PyDict.mem_entries_of_get? hgroup) _ hmem rfl

end BulkUrlService

/-- A link that a call has changed is in the cache no more, neither under the key that it had nor under the
one that it has. -/
theorem BulkRun.Accounted.entries_eq_none {Requested : Option UrlRow → Prop} {ids : List ObjectId}
    {before : UrlStore} {run : BulkRun} (h : run.Accounted Requested ids before) {old : UrlRow}
    (hold : old ∈ before.docs) (hchanged : run.urls.lookup old.id ≠ some old) (cache : UrlCache) :
    (BulkUrlService.invalidate cache run.cleared).entries (UrlCache.key old.linkAlias old.domain) = none ∧
      ∀ new ∈ run.urls.lookup old.id,
        (BulkUrlService.invalidate cache run.cleared).entries (UrlCache.key new.linkAlias new.domain) =
          none := by
  obtain ⟨hfrom, hto⟩ := h.cleared old hold hchanged
  exact ⟨BulkUrlService.entries_invalidate cache hfrom,
    fun new hnew => BulkUrlService.entries_invalidate cache (hto new hnew)⟩

/-! ## The bulk calls -/

/-- The bulk methods and what they are asked for. -/
inductive BulkOp where
  | delete
  | setStatus (status : OwnerStatus)
  | setExpiry (expireAfter : Option Int)
  | moveDomain (domain : Option String)

namespace BulkOp

/-- The call under errors; `envOn` is what an alias check finds on the links. -/
def runUnder (errors : DatabaseErrors) (envOn : UrlStore → UpdateEnv) (ids : List ObjectId)
    (ownerId : ObjectId) (now : Int) (urls : UrlStore) : BulkOp → BulkRun
  | .delete => BulkUrlService.bulkDeleteUnder errors ids ownerId urls
  | .setStatus status => BulkUrlService.bulkSetStatusUnder errors ids status ownerId now urls
  | .setExpiry expireAfter => BulkUrlService.bulkSetExpiryUnder errors ids expireAfter ownerId now urls
  | .moveDomain domain => BulkUrlService.bulkMoveDomainUnder errors envOn ids domain ownerId now urls

/-- The method on stores whose database does not fail, and its report. -/
def run (cfg : AliasConfig) (env : UpdateEnv) (edge : EdgeConfig) (ids : List ObjectId)
    (ownerId : ObjectId) (now : Int) (s : Stores) : BulkOp → Option BulkUrlOperationResponse × Stores
  | .delete =>
    let deleted := BulkUrlService.bulkDelete edge ids ownerId now s
    (deleted.1.toOption.join, deleted.2)
  | .setStatus status =>
    let changed := BulkUrlService.bulkSetStatus edge ids status ownerId now s
    (changed.1.toOption.join, changed.2)
  | .setExpiry expireAfter =>
    let changed := BulkUrlService.bulkSetExpiry edge ids expireAfter ownerId now s
    (changed.1.toOption.join, changed.2)
  | .moveDomain domain =>
    let moved := BulkUrlService.bulkMoveDomain (env.onStores cfg s) edge ids domain ownerId now s
    (moved.1.report, moved.2)

/-- Without errors the call is the method, where each alias check asks the links as they are then. -/
theorem run_eq_runUnder (cfg : AliasConfig) (env : UpdateEnv) (edge : EdgeConfig) (op : BulkOp)
    (ids : List ObjectId) (ownerId : ObjectId) (now : Int) (s : Stores) :
    BulkUrlService.RunsAs s
      (op.runUnder {} (fun urls => env.onStores cfg { s with urls }) ids ownerId now s.urls)
      (op.run cfg env edge ids ownerId now s).1 (op.run cfg env edge ids ownerId now s).2 := by
  cases op with
  | delete => exact BulkUrlService.bulkDelete_runsAs
  | setStatus status => exact BulkUrlService.bulkSetStatus_runsAs status
  | setExpiry expireAfter => exact BulkUrlService.bulkSetExpiry_runsAs expireAfter
  | moveDomain domain => exact BulkUrlService.bulkMoveDomain_runsAs cfg env domain

/-- The state that is asked for, of a link where there still is one. -/
def Requested (envOn : UrlStore → UpdateEnv) (urls : UrlStore) (found : Option UrlRow) : BulkOp → Prop
  | .delete => found = none
  | .setStatus status => ∃ row ∈ found, row.status = status.toUrlStatus
  | .setExpiry expireAfter => ∃ row ∈ found, row.expireAfter = expireAfter.map BsonDate.encode
  | .moveDomain domain => ∃ row ∈ found, row.domain = targetDomain (envOn urls) domain

/-- The database fails only where the call can still tell what it has done. -/
def Traceable (errors : DatabaseErrors) (envOn : UrlStore → UpdateEnv) (ids : List ObjectId)
    (ownerId : ObjectId) (now : Int) (urls : UrlStore) : BulkOp → Prop
  -- A deletion that fails in part is looked up again.
  | .delete => ∀ reached ∈ errors.write, errors.requery = true → ∀ row ∈ urls.docs, row.id ∈ ids →
      BulkUrlService.isLive ownerId row = true → reached row.id = false
  | .setStatus _ | .setExpiry _ => True
  | .moveDomain domain =>
    BulkUrlService.ChecksBeforeWrites errors envOn ids domain ownerId now urls

end BulkOp

/-- A bulk call accounts for what it does exactly if its deletion can be looked up again where it failed in
part, and no alias check of its move fails after a write. -/
theorem bulk_accounted_iff (errors : DatabaseErrors) (envOn : UrlStore → UpdateEnv) (op : BulkOp)
    (ids : List ObjectId) (ownerId : ObjectId) (now : Int) (urls : UrlStore) :
    (op.runUnder errors envOn ids ownerId now urls).Accounted (op.Requested envOn urls ·) ids urls ↔
      (errors.load = false → op.Traceable errors envOn ids ownerId now urls) := by
  cases op with
  | delete => exact BulkUrlService.accounted_bulkDelete_iff
  | setStatus status =>
    exact iff_of_true (BulkUrlService.accounted_bulkSetStatus status) fun _ => trivial
  | setExpiry expireAfter =>
    exact iff_of_true (BulkUrlService.accounted_bulkSetExpiry expireAfter) fun _ => trivial
  | moveDomain domain => exact BulkUrlService.accounted_bulkMoveDomain_iff

/-- Two links of one owner. -/
def ownedPair : UrlStore where
  docs := [
    { UrlRepository.linkOn 1 "aaa" "a.example" with ownerId := 7 },
    { UrlRepository.linkOn 2 "bbb" "a.example" with ownerId := 7 }]
  nodup_id := by decide
  nodup_key := by decide

/-- The database fails once a deletion has removed both links, or once a move has written the first. -/
def lateErrors : DatabaseErrors where
  write := some fun _ => true
  requery := true
  check i := i = 2

/-- The deletion removes both links, reports neither as gone and clears neither key. The move raises and
leaves the first link on the target. -/
theorem bulk_loses_track :
    (let run := BulkOp.delete.runUnder lateErrors (fun _ => openEnv) [1, 2] 7 5 ownedPair
    run.urls.docs = [] ∧ run.cleared = [] ∧
      run.report.map (fun report => report.results.map (·.errorCode)) =
        some [some "not_attempted", some "not_attempted"] ∧
      ¬run.Accounted (BulkOp.delete.Requested (fun _ => openEnv) ownedPair ·) [1, 2] ownedPair) ∧
    (let run := (BulkOp.moveDomain (some "b.example")).runUnder lateErrors (fun _ => openEnv) [1, 2]
      7 5 ownedPair
    run.report = none ∧ run.urls.docs.map (·.domain) = ["b.example", "spoo.me"] ∧ run.cleared = [] ∧
      ¬run.Accounted ((BulkOp.moveDomain (some "b.example")).Requested (fun _ => openEnv) ownedPair ·) [1, 2]
        ownedPair) := by
  refine ⟨⟨by decide +kernel, by decide +kernel, by decide +kernel, fun h => ?_⟩,
    ⟨by decide +kernel, by decide +kernel, by decide +kernel, fun h => ?_⟩⟩
  · have hcleared := (h.cleared _ List.mem_cons_self (by decide +kernel)).1
    revert hcleared
    decide +kernel
  · have hsame := h.raised (by decide +kernel)
    revert hsame
    decide +kernel

end Spoo
