import Spoo.Proofs.BlockedLinks
import Spoo.Proofs.RedirectStatus
import Spoo.Services.UrlService.StatusClause

/-!
# The status filter and the effective status

`effective_status_clause` and `UrlV2Doc.effective_status` state one precedence twice.
-/

namespace Spoo

open Mongo Mongo.Collection

namespace UrlV2Doc

variable {doc : UrlV2Doc} {now : Int}

theorem effectiveStatus_of_not_active (h : doc.status ≠ .active) :
    doc.effectiveStatus now = doc.status := by
  rw [effectiveStatus, if_pos h]

theorem effectiveStatus_eq_expired_iff : doc.effectiveStatus now = .expired ↔
    doc.status = .expired ∨ doc.status = .active ∧ (doc.Lapsed now ∨ doc.CapReached) := by
  by_cases hactive : doc.status = .active
  · simp only [effectiveStatus, Lapsed, CapReached, hactive, ne_eq, not_true_eq_false, if_false,
      Option.any_eq_true, decide_eq_true_eq, Option.mem_def, reduceCtorEq, true_and, false_or]
    split
    · simp [*]
    · split
      · simp [*]
      · split
        · simp [*]
        · simp [*]
  · rw [effectiveStatus_of_not_active hactive]
    simp [hactive]

theorem effectiveStatus_eq_scheduled_iff : doc.effectiveStatus now = .scheduled ↔
    doc.status = .scheduled ∨
      doc.status = .active ∧ ¬(doc.Lapsed now ∨ doc.CapReached) ∧ doc.Pending now := by
  by_cases hactive : doc.status = .active
  · simp only [effectiveStatus, Lapsed, CapReached, Pending, hactive, ne_eq, not_true_eq_false,
      if_false, Option.any_eq_true, decide_eq_true_eq, Option.mem_def, reduceCtorEq, true_and,
      false_or]
    split
    · simp [*]
    · split
      · simp [*]
      · split
        · simp [*]
        · simp [*]
  · rw [effectiveStatus_of_not_active hactive]
    simp [hactive]

/-- Only ACTIVE is derived from. -/
theorem effectiveStatus_eq_stored_iff {status : UrlStatus} (hactive : status ≠ .active)
    (hexpired : status ≠ .expired) (hscheduled : status ≠ .scheduled) :
    doc.effectiveStatus now = status ↔ doc.status = status := by
  unfold effectiveStatus
  split
  · rfl
  · rename_i hstored
    rw [not_not.1 hstored]
    split
    · exact iff_of_false hexpired.symm hactive.symm
    · split
      · exact iff_of_false hexpired.symm hactive.symm
      · split
        · exact iff_of_false hscheduled.symm hactive.symm
        · rfl

end UrlV2Doc

/-! ## The arms -/

section

variable {doc : StoredUrl} {now : Int}

/-- The driver cuts `now` to the millisecond, and the stored instants are whole milliseconds. -/
theorem decode_le_iff (d : BsonDate) (now : Int) :
    asAwareUtc d.decode ≤ now ↔ d ≤ BsonDate.encode now := by
  have hle : d ≤ BsonDate.encode now ↔ d.ms ≤ now / 1000 := Iff.rfl
  rw [hle]
  simp only [BsonDate.decode, asAwareUtc]
  omega

theorem lt_decode_iff (d : BsonDate) (now : Int) :
    now < asAwareUtc d.decode ↔ BsonDate.encode now < d := by
  have hlt : BsonDate.encode now < d ↔ now / 1000 < d.ms := Iff.rfl
  rw [hlt]
  simp only [BsonDate.decode, asAwareUtc]
  omega

theorem lte_expireAfter_iff : doc.expireAfter.lte (.encode now) = true ↔
    (UrlV2Doc.fromMongo doc.row).Lapsed now := by
  have hrow := doc.expireAfter_row
  cases h : doc.expireAfter <;>
    simp [UrlV2Doc.Lapsed, UrlV2Doc.fromMongo, hrow, h, DocField.lte, DocField.toOption,
      decode_le_iff]

theorem gt_startsAt_iff : doc.startsAt.gt (.encode now) = true ↔
    (UrlV2Doc.fromMongo doc.row).Pending now := by
  have hrow := doc.startsAt_row
  cases h : doc.startsAt <;>
    simp [UrlV2Doc.Pending, UrlV2Doc.fromMongo, hrow, h, DocField.gt, DocField.toOption,
      lt_decode_iff]

theorem exprGte_maxClicks_iff :
    (doc.maxClicks.isNotNull = true ∧
        (DocField.value doc.row.totalClicks).exprGte doc.maxClicks = true) ↔
      (UrlV2Doc.fromMongo doc.row).CapReached := by
  have hrow := doc.maxClicks_row
  cases h : doc.maxClicks <;>
    simp [UrlV2Doc.CapReached, UrlV2Doc.fromMongo, hrow, h, DocField.isNotNull,
      DocField.exprGte, DocField.toOption]

theorem matches_derivedScheduledArm : (derivedScheduledArm now).Matches doc = true ↔
    doc.row.status = .active ∧ (UrlV2Doc.fromMongo doc.row).Pending now := by
  rw [← gt_startsAt_iff]
  simp [derivedScheduledArm, Query.Matches, PyDict.ofList, PyDict.assignEntry, storedStatusIs,
    Query.field]

theorem matches_derivedExpiryArms :
    (derivedExpiryArms now).any (·.Matches doc) = true ↔ doc.row.status = .active ∧
      ((UrlV2Doc.fromMongo doc.row).Lapsed now ∨ (UrlV2Doc.fromMongo doc.row).CapReached) := by
  rw [← lte_expireAfter_iff, ← exprGte_maxClicks_iff, and_or_left]
  simp [derivedExpiryArms, Query.Matches, PyDict.ofList, PyDict.assignEntry, storedStatusIs,
    Query.field, Query.expr]

theorem matches_scheduledClause : (effectiveStatusClause .scheduled now).Matches doc =
    ((derivedScheduledArm now).Matches doc && !(derivedExpiryArms now).any (·.Matches doc)) := by
  have hkey : Key.nor ∉ PyDict.keys (derivedScheduledArm now) := by
    simp [derivedScheduledArm, PyDict.keys, PyDict.ofList, PyDict.assignEntry, storedStatusIs,
      Query.field]
  exact Query.matches_assign hkey

theorem matches_activeClause : (effectiveStatusClause .active now).Matches doc =
    (decide (doc.row.status = .active) && !((derivedExpiryArms now).any (·.Matches doc) ||
      (derivedScheduledArm now).Matches doc)) := by
  have hkeys : (Query.nor (derivedExpiryArms now ++ [derivedScheduledArm now])).1 ≠
      (storedStatusIs .active).1 := by
    simp [Query.nor, storedStatusIs, Query.field]
  have hmatches : (effectiveStatusClause .active now).Matches doc =
      ((storedStatusIs .active).2 doc &&
        (Query.nor (derivedExpiryArms now ++ [derivedScheduledArm now])).2 doc) :=
    Query.matches_pair hkeys
  rw [hmatches]
  simp [storedStatusIs, Query.field, Query.nor]

/-- The clause for a status selects the documents whose effective status it is. -/
theorem matches_effectiveStatusClause_iff (status : UrlStatus) :
    (effectiveStatusClause status now).Matches doc = true ↔
      (UrlV2Doc.fromMongo doc.row).effectiveStatus now = status := by
  have hexpiry : (derivedExpiryArms now).any (·.Matches doc) = true ↔ _ := matches_derivedExpiryArms
  have hscheduled : (derivedScheduledArm now).Matches doc = true ↔ _ := matches_derivedScheduledArm
  have hpersisted : (UrlV2Doc.fromMongo doc.row).status ≠ .scheduled := doc.persisted
  have hstored : (UrlV2Doc.fromMongo doc.row).status = doc.row.status := rfl
  cases status with
  | expired =>
    rw [UrlV2Doc.effectiveStatus_eq_expired_iff, hstored, ← hexpiry]
    simp only [effectiveStatusClause, if_true, Query.matches_single, Query.or, List.any_cons,
      storedStatusIs, Query.field, Bool.or_eq_true, decide_eq_true_eq]
  | scheduled =>
    rw [UrlV2Doc.effectiveStatus_eq_scheduled_iff, or_iff_right hpersisted, hstored,
      matches_scheduledClause, Bool.and_eq_true, hscheduled, Bool.not_eq_true',
      ← Bool.not_eq_true, hexpiry, and_assoc]
    refine and_congr_right fun hactive => ?_
    simp only [hactive, true_and]
    exact and_comm
  | active =>
    rw [UrlV2Doc.effectiveStatus_eq_active_iff, hstored, matches_activeClause, Bool.and_eq_true,
      decide_eq_true_eq, Bool.not_eq_true', ← Bool.not_eq_true, Bool.or_eq_true, hexpiry,
      hscheduled]
    refine and_congr_right fun hactive => ?_
    simp only [hactive, true_and, not_or, and_assoc]
  | inactive =>
    rw [UrlV2Doc.effectiveStatus_eq_stored_iff (by decide) (by decide) (by decide), hstored]
    simp [effectiveStatusClause, Query.matches_single, storedStatusIs, Query.field]
  | blocked =>
    rw [UrlV2Doc.effectiveStatus_eq_stored_iff (by decide) (by decide) (by decide), hstored]
    simp [effectiveStatusClause, Query.matches_single, storedStatusIs, Query.field]

end

/-- A document matches the clause for a status exactly when that is its effective status, and so it
matches exactly one of the clauses. -/
theorem effectiveStatusClause_selects (doc : StoredUrl) (now : Int) :
    (∀ status, (effectiveStatusClause status now).Matches doc = true ↔
      (UrlV2Doc.fromMongo doc.row).effectiveStatus now = status) ∧
    ∃! status, (effectiveStatusClause status now).Matches doc = true := by
  refine ⟨fun status => matches_effectiveStatusClause_iff status,
    (UrlV2Doc.fromMongo doc.row).effectiveStatus now, ?_, fun status hmatch => ?_⟩
  · exact (matches_effectiveStatusClause_iff _).2 rfl
  · exact ((matches_effectiveStatusClause_iff status).1 hmatch).symm

/-! ## SCHEDULED is never stored -/

open UrlRepository

/-- No stored link is SCHEDULED. -/
def NeverScheduled (urls : UrlStore) : Prop :=
  ∀ urlId row, urls.lookup urlId = some row → row.status ≠ .scheduled

variable {urls urls' : UrlStore}

theorem NeverScheduled.map {f : UrlRow → UrlRow} (h : NeverScheduled urls)
    (hlook : ∀ urlId, urls'.lookup urlId = (urls.lookup urlId).map f)
    (hf : ∀ row, row.status ≠ .scheduled → (f row).status ≠ .scheduled) :
    NeverScheduled urls' := by
  intro urlId row hrow
  rw [hlook, Option.map_eq_some_iff] at hrow
  obtain ⟨before, hbefore, rfl⟩ := hrow
  exact hf before (h urlId before hbefore)

theorem NeverScheduled.updateMany {q : UrlRow → Bool} {u : KeyedUpdate UrlRow}
    (h : NeverScheduled urls)
    (hu : ∀ row : UrlRow, row.status ≠ .scheduled → (u.apply row).status ≠ .scheduled) :
    NeverScheduled (urls.updateMany q u) := by
  refine h.map (lookup_updateMany urls q u) fun row hrow => ?_
  unfold applyWhere
  split
  · exact hu row hrow
  · exact hrow

/-- An owner asks for ACTIVE or INACTIVE. -/
theorem OwnerSteps.persisted {env : UpdateEnv} {o o' : Option UrlRow} (h : OwnerSteps env o o')
    (ho : ∀ row, o = some row → row.status ≠ .scheduled) :
    ∀ row, o' = some row → row.status ≠ .scheduled := by
  induction h with
  | refl => exact ho
  | tail _ hstep ih =>
    intro row' hrow'
    cases hstep with
    | deleted => cases hrow'
    | @edited row ops _ hops =>
      cases hrow'
      intro hscheduled
      cases hst : ops.status with
      | none =>
        simp only [UrlOps.toUpdate, hst, Option.getD_none] at hscheduled
        exact ih row rfl hscheduled
      | some status =>
        simp only [UrlOps.toUpdate, hst, Option.getD_some] at hscheduled
        rcases hops.status status hst with rfl | rfl <;> cases hscheduled
    | @retagged row =>
      cases hrow'
      exact ih row rfl
    | @claimed row =>
      cases hrow'
      exact ih row rfl

theorem NeverScheduled.blockChunks {reason : String} {now : Int} (chunks : List (List UrlQuery))
    (acc : UrlStore × Nat) (h : NeverScheduled acc.1) :
    NeverScheduled (chunks.foldl (blockChunk reason now) acc).1 := by
  induction chunks generalizing acc with
  | nil => exact h
  | cons chunk chunks ih =>
    exact ih (blockChunk reason now acc chunk) (h.updateMany fun _ _ => by simp [blockWith])

theorem V2ClickHandler.neverScheduled_handle {lib : UserAgentLib} {context : ClickContext}
    {s : Stores} (h : NeverScheduled s.urls) :
    NeverScheduled (V2ClickHandler.handle lib context s).2.urls := by
  unfold V2ClickHandler.handle
  split
  · exact h
  · rename_i urlId _ _
    have hcounted : NeverScheduled (incrementClicks s.urls urlId context.clickedAt) :=
      h.updateMany fun _ hrow => hrow
    simp only [urls_expireAtLimit]
    split
    · split
      · exact hcounted
      · exact hcounted.updateMany fun _ _ => by simp [setExpired]
    · exact hcounted
  · exact h

theorem UrlService.neverScheduled_raiseIfTimeExpired {data : UrlCacheData} {shortCode : String}
    {now : Int} {s : Stores} (h : NeverScheduled s.urls) :
    NeverScheduled (UrlService.raiseIfTimeExpired data shortCode now s).2.urls := by
  have hexpired (urlId : ObjectId) : NeverScheduled (expireIfTimeReached s.urls urlId now).1 :=
    h.updateMany fun _ _ => by simp [setExpired]
  unfold UrlService.raiseIfTimeExpired
  dsimp only
  split
  · exact h
  · split
    · split
      · dsimp only
        split <;> exact hexpired _
      · exact h
    · exact h

/-- No operation on stored links stores SCHEDULED. -/
theorem LinkOp.neverScheduled_run (edge : EdgeConfig) (cfg : EnforcerConfig) {s : Stores}
    (op : LinkOp) (h : NeverScheduled s.urls) : NeverScheduled (op.run edge cfg s).urls := by
  cases op with
  | owner env op =>
    intro urlId
    exact (op.ownerSteps_run edge env s urlId).persisted (h urlId)
  | click => exact V2ClickHandler.neverScheduled_handle h
  | resolve => exact UrlService.neverScheduled_raiseIfTimeExpired h
  | blockHost =>
    refine NeverScheduled.updateMany (h.updateMany fun _ _ => ?_) fun _ hrow => hrow
    simp [blockWith]
  | blockMatching => exact NeverScheduled.blockChunks _ _ h
  | blockAliases => exact NeverScheduled.blockChunks _ _ h

/-- SCHEDULED is stored in no state of a run. -/
theorem neverScheduled_throughout (edge : EdgeConfig) (cfg : EnforcerConfig) (s : Stores)
    (ops : List LinkOp) (h : NeverScheduled s.urls) :
    ∀ t ∈ List.scanl (LinkOp.run edge cfg) s ops, NeverScheduled t.urls := by
  refine Run.forall_mem_scanl_of_step (P := fun t : Stores => NeverScheduled t.urls) ?_ h
  exact fun t op ht => op.neverScheduled_run edge cfg ht

end Spoo
