import Spoo.Proofs.BulkEffects
import Spoo.Proofs.RedirectStatus
import Spoo.Proofs.UpdateRaces

/-!
# The window of a link over its changes, and what a reactivated link reads as

A creation and an update compare the start of the window with its end in microseconds; the driver stores both in
milliseconds. `bulk_set_expiry` writes the end without looking at the start. `_auto_reactivate` stores ACTIVE when a
request improves one of the two conditions a link expires on. `effective_status` looks at both.
-/

namespace Spoo

open Fallible Mongo Mongo.Collection

/-! ## The window of a link -/

/-- The link starts before it expires. -/
def UrlRow.InOrder (row : UrlRow) : Prop :=
  ∀ startsAt ∈ row.startsAt, ∀ expireAfter ∈ row.expireAfter, startsAt.ms < expireAfter.ms

instance (row : UrlRow) : Decidable row.InOrder :=
  inferInstanceAs (Decidable (∀ startsAt ∈ row.startsAt, ∀ expireAfter ∈ row.expireAfter,
    startsAt.ms < expireAfter.ms))

/-- Every stored link starts before it expires. -/
def SchedulesSane (s : Stores) : Prop := ∀ row ∈ s.urls.docs, row.InOrder

instance (s : Stores) : Decidable (SchedulesSane s) :=
  inferInstanceAs (Decidable (∀ row ∈ s.urls.docs, row.InOrder))

/-- The end of a window that a request leads to: what it asks for, else the one that is stored. -/
def endAfter (requested : Option (Option Int)) (stored : Option BsonDate) : Option Int :=
  match requested with
  | some value => value
  | none => stored.map fun date => asAwareUtc date.decode

/-- Two ends in order that stay in order when they are stored. -/
def StaysApart (startsAt expireAfter : Option Int) : Prop :=
  ∀ start ∈ startsAt, ∀ expiry ∈ expireAfter, start < expiry →
    (BsonDate.encode start).ms < (BsonDate.encode expiry).ms

instance (startsAt expireAfter : Option Int) : Decidable (StaysApart startsAt expireAfter) :=
  inferInstanceAs (Decidable (∀ start ∈ startsAt, ∀ expiry ∈ expireAfter, start < expiry →
    (BsonDate.encode start).ms < (BsonDate.encode expiry).ms))

/-! ## What an update writes of the window -/

section

variable {env : UpdateEnv} {now : Int} {request : UpdateUrlRequest} {clientIp : Option String}
  {existing : UrlV2Doc} {ops ops' : UrlOps} {row : UrlRow}

/-- The handlers around the two of the window neither read nor write it. -/
theorem handler_keeps_window {handler : Handler}
    (hmem : handler ∈ fieldHandlers.take 5 ++ fieldHandlers.drop 7)
    (h : handler env now request existing ops = .ok ops') :
    ops'.startsAt = ops.startsAt ∧ ops'.expireAfter = ops.expireAfter := by
  have hblind : handler env now { request with startsAt := none, expireAfter := none } existing ops =
      .ok ops' := by
    rw [← h]
    simp only [fieldHandlers, List.take_succ_cons, List.take_zero, List.drop_succ_cons,
      List.drop_zero, List.cons_append, List.nil_append, List.mem_cons, List.not_mem_nil,
      or_false] at hmem
    rcases hmem with rfl | rfl | rfl | rfl | rfl | rfl | rfl | rfl | rfl | rfl | rfl | rfl | rfl |
      rfl <;> rfl
  cases handler_writes (mem_fieldHandlers_of_around hmem) hblind with
  | startsAt _ named => cases named
  | expireAfter _ named => cases named
  | _ => exact ⟨rfl, rfl⟩

theorem handleStartsAt_end
    (h : handleStartsAt env now request (.fromMongo row) ops = .ok ops') (hnew : ops.startsAt = none) :
    (mergedInstant ops'.startsAt (UrlV2Doc.fromMongo row).startsAt).map asAwareUtc =
      endAfter request.startsAt row.startsAt := by
  unfold handleStartsAt at h
  split at h
  · rename_i hrequest
    cases h
    simp [hnew, hrequest, mergedInstant, endAfter, UrlV2Doc.fromMongo, Function.comp_def]
  · rename_i hrequest
    split at h
    · cases h
      simp [hrequest, mergedInstant, endAfter]
    · rename_i hnone
      cases h
      have hstored : row.startsAt = none := by simpa [UrlV2Doc.fromMongo] using hnone
      simp [hnew, hrequest, mergedInstant, endAfter, UrlV2Doc.fromMongo, hstored]
  · rename_i startsAt hrequest
    split at h
    · cases h
    · split at h
      · cases h
        simp [hrequest, mergedInstant, endAfter, asAwareUtc]
      · rename_i hsame
        -- A stored date is naive, so it never equals the one of a request.
        cases hstored : row.startsAt <;>
          simp [UrlV2Doc.fromMongo, hstored, BsonDate.decode] at hsame

theorem handleExpireAfter_end
    (h : handleExpireAfter env now request (.fromMongo row) ops = .ok ops')
    (hnew : ops.expireAfter = none) :
    (mergedInstant ops'.expireAfter (UrlV2Doc.fromMongo row).expireAfter).map asAwareUtc =
      endAfter request.expireAfter row.expireAfter := by
  unfold handleExpireAfter at h
  split at h
  · rename_i hrequest
    cases h
    simp [hnew, hrequest, mergedInstant, endAfter, UrlV2Doc.fromMongo, Function.comp_def]
  · rename_i hrequest
    split at h
    · cases h
      simp [hrequest, mergedInstant, endAfter]
    · rename_i hnone
      cases h
      have hstored : row.expireAfter = none := by simpa [UrlV2Doc.fromMongo] using hnone
      simp [hnew, hrequest, mergedInstant, endAfter, UrlV2Doc.fromMongo, hstored]
  · rename_i expireAfter hrequest
    split at h
    · cases h
    · split at h
      · cases h
        simp [hrequest, mergedInstant, endAfter, asAwareUtc]
      · rename_i hsame
        cases hstored : row.expireAfter <;>
          simp [UrlV2Doc.fromMongo, hstored, BsonDate.decode] at hsame

/-- The window that an update decides on is the one its request leads to. -/
theorem ends_buildOps (h : buildOps env now request clientIp (.fromMongo row) = .ok ops) :
    (mergedInstant ops.startsAt (UrlV2Doc.fromMongo row).startsAt).map asAwareUtc =
        endAfter request.startsAt row.startsAt ∧
      (mergedInstant ops.expireAfter (UrlV2Doc.fromMongo row).expireAfter).map asAwareUtc =
        endAfter request.expireAfter row.expireAfter := by
  obtain ⟨collected, hcollect, rfl⟩ := buildOps_collected h
  have hwrites : ∃ dest metaTags status, ((collected.restamp env.lib (.fromMongo row)).stampMetaIp
      clientIp).autoReactivate (.fromMongo row) now = { collected with dest, metaTags, status } :=
    UrlOps.finish_writes env.lib clientIp
  obtain ⟨dest, metaTags, status, hfinish⟩ := hwrites
  rw [hfinish]
  show (mergedInstant collected.startsAt _).map asAwareUtc = _ ∧
    (mergedInstant collected.expireAfter _).map asAwareUtc = _
  have hsplit : fieldHandlers = fieldHandlers.take 5 ++
      handleExpireAfter :: handleStartsAt :: fieldHandlers.drop 7 := rfl
  rw [hsplit, List.foldlM_append, bind_eq_ok] at hcollect
  obtain ⟨before, hbefore, hcollect⟩ := hcollect
  rw [List.foldlM_cons, bind_eq_ok] at hcollect
  obtain ⟨expiring, hexpire, hcollect⟩ := hcollect
  rw [List.foldlM_cons, bind_eq_ok] at hcollect
  obtain ⟨windowed, hstart, hcollect⟩ := hcollect
  have keeps {stages : List Handler} (hstages : ∀ handler ∈ stages,
      handler ∈ fieldHandlers.take 5 ++ fieldHandlers.drop 7) {a b : UrlOps}
      (hrun : stages.foldlM (fun ops handler => handler env now request (.fromMongo row) ops) a =
        .ok b) : b.startsAt = a.startsAt ∧ b.expireAfter = a.expireAfter :=
    foldlM_invariant (P := fun ops : UrlOps =>
        ops.startsAt = a.startsAt ∧ ops.expireAfter = a.expireAfter)
      (fun handler hmem c d hc hd => by
        obtain ⟨hs, he⟩ := handler_keeps_window (hstages handler hmem) hd
        exact ⟨hs.trans hc.1, he.trans hc.2⟩)
      ⟨rfl, rfl⟩ hrun
  obtain ⟨hnoStart, hnoExpiry⟩ := keeps (fun _ => List.mem_append_left _) hbefore
  obtain ⟨hkeptStart, hkeptExpiry⟩ := keeps (fun _ => List.mem_append_right _) hcollect
  obtain ⟨_, hexpiring⟩ := handleExpireAfter_writes hexpire
  obtain ⟨_, hwindowed⟩ := handleStartsAt_writes hstart
  have hexpiringStart : expiring.startsAt = none := by rw [hexpiring]; exact hnoStart
  have hwindowedExpiry : windowed.expireAfter = expiring.expireAfter := by rw [hwindowed]
  rw [hkeptStart, hkeptExpiry, hwindowedExpiry]
  exact ⟨handleStartsAt_end hstart hexpiringStart, handleExpireAfter_end hexpire hnoExpiry⟩

/-- An update keeps the window in order when the driver keeps the one it leads to. -/
theorem inOrder_toUpdate (h : buildOps env now request clientIp (.fromMongo row) = .ok ops)
    (hapart : StaysApart (endAfter request.startsAt row.startsAt)
      (endAfter request.expireAfter row.expireAfter))
    (hrow : row.InOrder) : (ops.toUpdate.apply row).InOrder := by
  obtain ⟨hstart, hexpiry⟩ := ends_buildOps h
  refine window_toUpdate h (fun hsets => ⟨fun _ => rfl, fun _ => rfl, ?_⟩) hrow
  intro startsAt hs expireAfter he
  have named {op : Option (Option Int)} (h : op.join.isSome) : op.isSome :=
    Option.isSome_of_any (Option.isSome_join ▸ h)
  have hlt := startsAt_lt_of_buildOps h (hsets.imp named named) startsAt hs expireAfter he
  have hs' : asAwareUtc startsAt ∈ endAfter request.startsAt row.startsAt := by
    rw [← hstart]
    exact Option.mem_map_of_mem _ hs
  have he' : asAwareUtc expireAfter ∈ endAfter request.expireAfter row.expireAfter := by
    rw [← hexpiry]
    exact Option.mem_map_of_mem _ he
  have hms := hapart _ hs' _ he' hlt
  intro hsame
  rw [hsame] at hms
  exact absurd hms (lt_irrefl _)

end

/-! ## One change -/

section

variable {edge : EdgeConfig} {s : Stores} {now : Int}

/-- A creation stores a window in order when the driver keeps the one of its request. -/
theorem SchedulesSane.create {env : CreateEnv} {request : CreateUrlRequest}
    {ownerId : Option ObjectId} {clientIp : String} {domain : Option String} (h : SchedulesSane s)
    (hapart : StaysApart request.startsAt request.expireAfter) :
    SchedulesSane (UrlService.create env edge request ownerId clientIp domain now s).2 := by
  have hcases : (UrlService.create env edge request ownerId clientIp domain now s).2 = s ∧ _ ∨ _ :=
    UrlService.create_cases edge
  rcases hcases with ⟨hsame, -⟩ | ⟨row, urls, hbuild, hinsert, hcreate⟩
  · rw [hsame]
    exact h
  · rw [hcreate]
    obtain ⟨-, -, hdocs⟩ := insertOne_eq_some hinsert
    intro row' hrow'
    rw [hdocs, List.mem_append, List.mem_singleton] at hrow'
    rcases hrow' with hrow' | rfl
    · exact h row' hrow'
    · obtain ⟨metaTags, linkAlias, tagIds, hchecks, -, rfl⟩ := UrlService.buildRow_ok hbuild
      unfold UrlService.checkRequest at hchecks
      obtain ⟨_, -, hchecks⟩ := bind_eq_ok.1 hchecks
      obtain ⟨_, -, hchecks⟩ := bind_eq_ok.1 hchecks
      obtain ⟨_, -, hchecks⟩ := bind_eq_ok.1 hchecks
      obtain ⟨_, -, hchecks⟩ := bind_eq_ok.1 hchecks
      obtain ⟨_, -, hchecks⟩ := bind_eq_ok.1 hchecks
      obtain ⟨_, -, hchecks⟩ := bind_eq_ok.1 hchecks
      obtain ⟨_, -, hchecks⟩ := bind_eq_ok.1 hchecks
      obtain ⟨_, hwindow, -⟩ := bind_eq_ok.1 hchecks
      intro startsAt hs expireAfter he
      obtain ⟨start, hstart, rfl⟩ := Option.map_eq_some_iff.1 hs
      obtain ⟨expiry, hexpiry, rfl⟩ := Option.map_eq_some_iff.1 he
      refine hapart start hstart expiry hexpiry ?_
      rw [hstart, hexpiry] at hwindow
      exact lt_of_checkStartBeforeExpiry hwindow

/-- An update stores a window in order when the driver keeps the one it leads to. -/
theorem SchedulesSane.update {env : UpdateEnv} {urlId ownerId : ObjectId}
    {request : UpdateUrlRequest} {clientIp : Option String} (h : SchedulesSane s)
    (hapart : ∀ row ∈ s.urls.lookup urlId, StaysApart (endAfter request.startsAt row.startsAt)
      (endAfter request.expireAfter row.expireAfter)) :
    SchedulesSane (UrlService.update env edge urlId request ownerId clientIp now s).2 := by
  have hcases : (UrlService.update env edge urlId request ownerId clientIp now s).2 = s ∨ _ :=
    UrlService.update_cases
  rcases hcases with hsame | ⟨row, built, urls, hrow, hbuild, hwrite, hurls, -⟩
  · rw [hsame]
    exact h
  · intro row' hrow'
    rw [hurls, docs_updateManyUnique hwrite, List.mem_map] at hrow'
    obtain ⟨stored, hstored, rfl⟩ := hrow'
    unfold applyWhere
    split
    · rename_i hmatches
      have hid : stored.id = urlId := by simpa using hmatches
      cases hrow.symm.trans (lookup_eq_some_iff.2 ⟨hstored, hid⟩)
      have hkept : (built.toUpdate.apply row).InOrder :=
        inOrder_toUpdate hbuild (hapart row hrow) (h row hstored)
      exact hkept
    · exact h stored hstored

/-- A bulk expiry change keeps the windows in order when it ends none of them before its start. -/
theorem SchedulesSane.bulkSetExpiry {ids : List ObjectId} {expireAfter : Option Int}
    {ownerId : ObjectId} (h : SchedulesSane s)
    (hlate : ∀ value ∈ expireAfter, now < value → ∀ row ∈ s.urls.docs, row.id ∈ ids →
      BulkUrlService.isLive ownerId row = true → ∀ startsAt ∈ row.startsAt,
        startsAt.ms < (BsonDate.encode value).ms) :
    SchedulesSane (BulkUrlService.bulkSetExpiry edge ids expireAfter ownerId now s).2 := by
  by_cases hfuture : ∀ value ∈ expireAfter, now < value
  · have hbulk : (BulkUrlService.bulkSetExpiry edge ids expireAfter ownerId now s).1 = _ ∧ _ :=
      BulkUrlService.bulkSetExpiry_eq hfuture
    obtain ⟨-, hdocs⟩ := hbulk
    unfold BulkUrlService.expiryEffect at hdocs
    intro row' hrow'
    rw [hdocs, Itemwise.rewrite_some, List.mem_map] at hrow'
    obtain ⟨row, hrow, rfl⟩ := hrow'
    split
    · rename_i hasked
      split
      · rename_i htouched
        have hwritten : ∀ startsAt ∈ row.startsAt, ∀ expiry ∈ expireAfter.map BsonDate.encode,
            startsAt.ms < expiry.ms := by
          intro startsAt hs expiry he
          obtain ⟨value, hvalue, rfl⟩ := Option.map_eq_some_iff.1 he
          exact hlate value hvalue (hfuture value hvalue) row hrow (of_decide_eq_true hasked)
            htouched.1 startsAt hs
        split <;> exact hwritten
      · exact h row hrow
    · exact h row hrow
  · push Not at hfuture
    obtain ⟨value, rfl, hpast⟩ := hfuture
    have hbulk : (BulkUrlService.bulkSetExpiry edge ids (some value) ownerId now s).1 = _ ∧ _ :=
      BulkUrlService.bulkSetExpiry_past hpast
    unfold SchedulesSane
    rw [hbulk.2]
    exact h

end

/-! ## Runs -/

/-- A call that can change a window: a creation or an update with what other components answer it, or
a bulk expiry change. -/
inductive ScheduleChange where
  | single (env : CreateEnv) (call : LinkRequest)
  | bulkSetExpiry (ids : List ObjectId) (expireAfter : Option Int) (ownerId : ObjectId) (now : Int)

namespace ScheduleChange

/-- Run the call. -/
def run (edge : EdgeConfig) (s : Stores) : ScheduleChange → Stores
  | .single env call => (call.run env edge s).2
  | .bulkSetExpiry ids expireAfter ownerId now =>
    (BulkUrlService.bulkSetExpiry edge ids expireAfter ownerId now s).2

/-- The window that a creation or an update leads to is not cut to one millisecond, and a bulk expiry
change ends no link of the owner before its stored start. -/
def KeepsOrder (s : Stores) : ScheduleChange → Prop
  | .single _ (.create request _ _ _ _) => StaysApart request.startsAt request.expireAfter
  | .single _ (.update urlId request _ _ _) => ∀ row ∈ s.urls.lookup urlId,
    StaysApart (endAfter request.startsAt row.startsAt) (endAfter request.expireAfter row.expireAfter)
  | .bulkSetExpiry ids expireAfter ownerId now => ∀ value ∈ expireAfter, now < value →
    ∀ row ∈ s.urls.docs, row.id ∈ ids → BulkUrlService.isLive ownerId row = true →
      ∀ startsAt ∈ row.startsAt, startsAt.ms < (BsonDate.encode value).ms

instance (s : Stores) : ∀ change : ScheduleChange, Decidable (change.KeepsOrder s)
  | .single _ (.create request _ _ _ _) =>
    inferInstanceAs (Decidable (StaysApart request.startsAt request.expireAfter))
  | .single _ (.update urlId request _ _ _) => inferInstanceAs (Decidable (∀ row ∈ s.urls.lookup urlId,
    StaysApart (endAfter request.startsAt row.startsAt) (endAfter request.expireAfter row.expireAfter)))
  | .bulkSetExpiry ids expireAfter ownerId now => inferInstanceAs (Decidable (∀ value ∈ expireAfter,
    now < value → ∀ row ∈ s.urls.docs, row.id ∈ ids → BulkUrlService.isLive ownerId row = true →
      ∀ startsAt ∈ row.startsAt, startsAt.ms < (BsonDate.encode value).ms))

theorem schedulesSane_run {edge : EdgeConfig} {s : Stores} {change : ScheduleChange}
    (h : SchedulesSane s) (hkeeps : change.KeepsOrder s) : SchedulesSane (change.run edge s) := by
  cases change with
  | single env call =>
    cases call with
    | create request ownerId clientIp domain now => exact h.create hkeeps
    | update urlId request ownerId clientIp now => exact h.update hkeeps
  | bulkSetExpiry ids expireAfter ownerId now => exact h.bulkSetExpiry hkeeps

end ScheduleChange

/-- In every state of a run of creations, updates and bulk expiry changes every link starts before
it expires, if no call cuts a window to one millisecond and no bulk change ends one before its
start. -/
theorem windows_in_order (edge : EdgeConfig) (s : Stores) (changes : List ScheduleChange)
    (hstart : SchedulesSane s)
    (hkeeps : Run.Guarded (ScheduleChange.run edge) ScheduleChange.KeepsOrder s changes) :
    ∀ t ∈ List.scanl (ScheduleChange.run edge) s changes, SchedulesSane t :=
  Run.forall_mem_scanl (fun _ _ h hkeeps => ScheduleChange.schedulesSane_run h hkeeps) hstart hkeeps

/-- A link that starts at 5 s and gets an expiry in bulk. -/
def createThenExpire (expireAfter : Int) : List ScheduleChange := [
  .single openCreateEnv (.create scheduledRequest (some 7) "192.0.2.1" none 0),
  .bulkSetExpiry [1] (some expireAfter) 7 1]

theorem windows_in_order_late :
    SchedulesSane noLinks ∧ ∀ t ∈ List.scanl (ScheduleChange.run plainEdge) noLinks
      (createThenExpire 9000000), SchedulesSane t :=
  ⟨by decide +kernel, windows_in_order plainEdge noLinks (createThenExpire 9000000) (by decide +kernel)
    (by decide +kernel)⟩

/-- An expiry of 2 s goes onto the link that starts at 5 s. -/
theorem window_ends_before_start :
    SchedulesSane noLinks ∧
      ¬SchedulesSane ((createThenExpire 2000000).foldl (ScheduleChange.run plainEdge) noLinks) := by
  decide +kernel

/-- An update asks for an end in the millisecond of the start. -/
theorem window_cut_to_millisecond :
    SchedulesSane noLinks ∧ ¬SchedulesSane (ScheduleChange.run plainEdge noLinks (.single openCreateEnv
      (.create { scheduledRequest with expireAfter := some 5000001 } (some 7) "192.0.2.1" none 0))) := by
  decide +kernel

/-! ## What a reactivated link reads as -/

variable {env : UpdateEnv} {now : Int} {request : UpdateUrlRequest} {clientIp : Option String}
  {ops ops' : UrlOps} {row row' : UrlRow}

/-- The click cap that a request leads to: what it asks for, where 0 asks for none, else the one that
is stored. -/
def capAfter (requested : Option (Option Nat)) (stored : Option Nat) : Option Nat :=
  match requested with
  | some cap =>
    if cap.getD 0 ≠ 0 then cap
    else if stored.getD 0 ≠ 0 then none
    else stored
  | none => stored

/-- The handlers around that of the cap neither read nor write it. -/
theorem handler_keeps_cap {handler : Handler}
    (hmem : handler ∈ fieldHandlers.take 4 ++ fieldHandlers.drop 5)
    (h : handler env now request (.fromMongo row) ops = .ok ops') :
    ops'.maxClicks = ops.maxClicks := by
  have hblind : handler env now { request with maxClicks := none } (.fromMongo row) ops =
      .ok ops' := by
    rw [← h]
    simp only [fieldHandlers, List.take_succ_cons, List.take_zero, List.drop_succ_cons,
      List.drop_zero, List.cons_append, List.nil_append, List.mem_cons, List.not_mem_nil,
      or_false] at hmem
    rcases hmem with rfl | rfl | rfl | rfl | rfl | rfl | rfl | rfl | rfl | rfl | rfl | rfl | rfl |
      rfl | rfl <;> rfl
  cases handler_writes (mem_fieldHandlers_of_around hmem) hblind with
  | maxClicks _ named => cases named
  | _ => rfl

theorem handleMaxClicks_cap (h : handleMaxClicks env now request (.fromMongo row) ops = .ok ops')
    (hnew : ops.maxClicks = none) :
    ops'.maxClicks.getD row.maxClicks = capAfter request.maxClicks row.maxClicks := by
  have hstored : (UrlV2Doc.fromMongo row).maxClicks = row.maxClicks := rfl
  unfold handleMaxClicks at h
  unfold capAfter
  rw [hstored] at h
  cases hrequest : request.maxClicks with
  | none =>
    rw [hrequest] at h
    cases h
    simp [hnew]
  | some cap =>
    rw [hrequest] at h
    simp only at h ⊢
    split at h
    · rename_i hcleared
      cases h
      simp [hcleared]
    · rename_i hkept
      split at h
      · rename_i hset
        cases h
        simp [hset.1]
      · rename_i hsame
        cases h
        rw [hnew, Option.getD_none]
        -- What is left of the cap as it was: it is asked for, or 0 is and none is stored.
        by_cases hcap : cap.getD 0 = 0
        · have hnone : row.maxClicks.getD 0 = 0 := by
            by_contra hstored
            exact hkept ⟨hcap, hstored⟩
          simp [hcap, hnone]
        · have hequal : cap = row.maxClicks := by
            by_contra hdiffers
            exact hsame ⟨hcap, hdiffers⟩
          rw [if_pos hcap, hequal]

/-- The cap that an update writes is the one its request leads to. -/
theorem cap_buildOps (h : buildOps env now request clientIp (.fromMongo row) = .ok ops) :
    ops.maxClicks.getD row.maxClicks = capAfter request.maxClicks row.maxClicks := by
  have hsplit : fieldHandlers =
      fieldHandlers.take 4 ++ handleMaxClicks :: fieldHandlers.drop 5 := rfl
  obtain ⟨before, after, hcap, hnew, hkept⟩ := buildOps_around (g := UrlOps.maxClicks) hsplit
    (fun _ _ _ _ => rfl) (fun handler hmem _ _ hrun => handler_keeps_cap hmem hrun) h
  rw [hkept]
  exact handleMaxClicks_cap hcap hnew

/-- The expiry that an update stores is the one its request leads to, cut to milliseconds. -/
theorem expiry_buildOps (h : buildOps env now request clientIp (.fromMongo row) = .ok ops) :
    (ops.toUpdate.apply row).expireAfter =
      (endAfter request.expireAfter row.expireAfter).map BsonDate.encode := by
  have hstored : (ops.toUpdate.apply row).expireAfter =
      (mergedInstant ops.expireAfter (UrlV2Doc.fromMongo row).expireAfter).map fun instant =>
        BsonDate.encode (asAwareUtc instant) :=
    instant_toUpdate fun _ => rfl
  rw [hstored, ← (ends_buildOps h).2, Option.map_map]
  rfl

theorem effectiveStatus_ne_expired_iff {doc : UrlV2Doc} (hactive : doc.status = .active) :
    doc.effectiveStatus now ≠ .expired ↔ ¬doc.Lapsed now ∧ ¬doc.CapReached := by
  simp only [UrlV2Doc.effectiveStatus, UrlV2Doc.Lapsed, UrlV2Doc.CapReached, hactive, ne_eq,
    not_true_eq_false, if_false, Option.any_eq_true, decide_eq_true_eq, Option.mem_def]
  split
  · simp [*]
  · split
    · simp [*]
    · split <;> simp [*]

/-- An update that makes an expired link ACTIVE, by itself or because the request names the status,
leaves it unexpired exactly when neither reason stands any more: the expiry the request leads to is
to come, in the milliseconds it is stored in, and the cap it leads to is above the clicks. -/
theorem reactivated_iff (env : UpdateEnv) (edge : EdgeConfig) (urlId ownerId : ObjectId)
    (request : UpdateUrlRequest) (clientIp : Option String) (now : Int) (s : Stores)
    (row row' : UrlRow) (hrow : s.urls.lookup urlId = some row) (hexpired : row.status = .expired)
    (hrow' : (UrlService.update env edge urlId request ownerId clientIp now s).2.urls.lookup urlId =
      some row')
    (hactive : row'.status = .active) :
    (UrlV2Doc.fromMongo row').effectiveStatus now ≠ .expired ↔
      (∀ expiry ∈ endAfter request.expireAfter row.expireAfter,
        now < asAwareUtc (BsonDate.encode expiry).decode) ∧
      ∀ cap ∈ capAfter request.maxClicks row.maxClicks, row.totalClicks < cap := by
  have hcases : (UrlService.update env edge urlId request ownerId clientIp now s).2 = s ∨ _ :=
    UrlService.update_cases
  rcases hcases with hsame | ⟨read, built, urls, hread, hbuild, hwrite, hurls, -⟩
  · rw [hsame, hrow] at hrow'
    cases hrow'
    rw [hexpired] at hactive
    cases hactive
  · cases hrow.symm.trans hread
    rw [hurls, lookup_updateManyUnique hwrite, hrow] at hrow'
    have hid : row.id = urlId := (lookup_eq_some_iff.1 hrow).2
    rw [Option.map_some, applyWhere_of_matches _ (by simp [hid])] at hrow'
    cases hrow'
    -- The time of the update is no part of what is compared.
    have hexpiry : (built.toUpdate.apply row).expireAfter =
        (endAfter request.expireAfter row.expireAfter).map BsonDate.encode := expiry_buildOps hbuild
    have hcap : (built.toUpdate.apply row).maxClicks =
        capAfter request.maxClicks row.maxClicks := cap_buildOps hbuild
    have hclicks : (built.toUpdate.apply row).totalClicks = row.totalClicks := rfl
    rw [effectiveStatus_ne_expired_iff hactive, ← hclicks, ← hcap]
    refine and_congr ?_ ?_
    · show ¬(UrlV2Doc.fromMongo (built.toUpdate.apply row)).Lapsed now ↔ _
      simp [UrlV2Doc.Lapsed, UrlV2Doc.fromMongo, hexpiry]
    · show ¬(UrlV2Doc.fromMongo (built.toUpdate.apply row)).CapReached ↔ _
      simp [UrlV2Doc.CapReached, UrlV2Doc.fromMongo]

/-- A link that expired of both reasons. -/
def expiredTwiceLink : UrlRow :=
  { exhaustedLink with status := .expired, expireAfter := some ⟨1000⟩ }

/-- The stores with the one link. -/
def expiredTwiceStores : Stores :=
  { exhaustedStores with
    urls := { docs := [expiredTwiceLink], nodup_id := by decide, nodup_key := by decide } }

/-- The link after an update of its owner at two seconds. -/
def expiredTwiceAfter (request : UpdateUrlRequest) : Option UrlRow :=
  (UrlService.update openEnv plainEdge 1 request 7 none 2000000 expiredTwiceStores).2.urls.lookup 1

/-- The cap and the expiry are both lifted. -/
def liftBoth : UpdateUrlRequest where
  maxClicks := some (some 20)
  expireAfter := some none

theorem reactivated_iff_both :
    ∃ row', expiredTwiceAfter liftBoth = some row' ∧ row'.status = .active ∧
      ((UrlV2Doc.fromMongo row').effectiveStatus 2000000 ≠ .expired ↔
        (∀ expiry ∈ endAfter liftBoth.expireAfter expiredTwiceLink.expireAfter,
          2000000 < asAwareUtc (BsonDate.encode expiry).decode) ∧
        ∀ cap ∈ capAfter liftBoth.maxClicks expiredTwiceLink.maxClicks,
          expiredTwiceLink.totalClicks < cap) :=
  ⟨_, rfl, rfl, reactivated_iff openEnv plainEdge 1 7 liftBoth none 2000000 expiredTwiceStores
    expiredTwiceLink _ rfl rfl rfl rfl⟩

/-- Raising the cap alone reactivates a link whose expiry has passed as well. -/
theorem raised_cap_leaves_expired :
    wantedStatus { maxClicks := some (some 20) } (.fromMongo expiredTwiceLink) = none ∧
      ∃ row', expiredTwiceAfter { maxClicks := some (some 20) } = some row' ∧
        row'.status = .active ∧
        (UrlV2Doc.fromMongo row').effectiveStatus 2000000 = .expired := by
  decide +kernel

end Spoo
