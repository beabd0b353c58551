import Spoo.Proofs.OwnerSteps
import Spoo.Proofs.PerLinkBlocks
import Spoo.Services.Click.Handlers

/-!
# Leaving BLOCKED

Apart from an unblock, only the click counter takes a link out of BLOCKED: the expiry at the
click limit has no status guard, while the expiry in time, the owner's methods and the safety
blocks all have one.
-/

namespace Spoo

open Mongo Mongo.Collection

namespace UrlRepository

/-- The link exists and is BLOCKED. -/
def BlockedAt (urls : UrlStore) (urlId : ObjectId) : Prop :=
  ∃ row, urls.lookup urlId = some row ∧ row.status = .blocked

instance (urls : UrlStore) (urlId : ObjectId) : Decidable (BlockedAt urls urlId) :=
  match h : urls.lookup urlId with
  | none => isFalse fun ⟨row, hrow, _⟩ => by rw [h] at hrow; cases hrow
  | some row =>
    if hb : row.status = .blocked then isTrue ⟨row, h, hb⟩
    else isFalse fun ⟨row', hrow', hb'⟩ => by
      rw [h] at hrow'
      cases hrow'
      exact hb hb'

variable {urls urls' : UrlStore} {urlId : ObjectId}

theorem BlockedAt.map {f : UrlRow → UrlRow} (h : BlockedAt urls urlId)
    (hlook : urls'.lookup urlId = (urls.lookup urlId).map f)
    (hf : ∀ row, row.id = urlId → row.status = .blocked → (f row).status = .blocked) :
    BlockedAt urls' urlId := by
  obtain ⟨row, hrow, hblocked⟩ := h
  have hid : row.id = urlId := (lookup_eq_some_iff.1 hrow).2
  exact ⟨f row, by rw [hlook, hrow]; rfl, hf row hid hblocked⟩

theorem status_afterBlock {host reason : String} {now : Int} {row : UrlRow}
    (h : row.status = .blocked) : (afterBlock host reason now row).status = .blocked := by
  by_cases hcol : Collects row
  · rw [afterBlock_of_collects hcol]
    exact h
  · rw [afterBlock_of_untouched (fun hact => by simp [h] at hact) hcol]
    exact h

theorem status_afterAliases {pairs : List (String × String)} {reason : String} {now : Int}
    {row : UrlRow} (h : row.status = .blocked) :
    (afterAliases pairs reason now row).status = .blocked := by
  rw [afterAliases, applyWhere_of_not_matches _ (by simp [aliasesSelect, h])]
  exact h

@[simp] theorem matches_timeReachedFilter {row : UrlRow} (now : Int) :
    (timeReachedFilter urlId now).Matches row =
      (decide (row.id = urlId) && (decide (row.status = .active) &&
        row.expireAfter.any fun d : BsonDate => d.ms ≤ (BsonDate.encode now).ms)) := by
  simp [timeReachedFilter, Query.Matches, PyDict.ofList, PyDict.assignEntry, idIs, statusIs,
    Query.field]

theorem blockedAt_expireIfTimeReached {other : ObjectId} {now : Int}
    (h : BlockedAt urls urlId) : BlockedAt (expireIfTimeReached urls other now).1 urlId := by
  refine h.map (lookup_updateMany urls _ _ urlId) fun row _ hblocked => ?_
  rw [applyWhere_of_not_matches _ (by simp [hblocked])]
  exact hblocked

theorem blockedAt_incrementClicks {other : ObjectId} {time : Int} (h : BlockedAt urls urlId) :
    BlockedAt (incrementClicks urls other time) urlId := by
  refine h.map (lookup_updateMany urls _ _ urlId) fun row _ hblocked => ?_
  unfold applyWhere
  split <;> exact hblocked

/-- The expiry at the click limit asks for the count and for nothing else. -/
theorem blockedAt_expireIfMaxClicks_iff {other : ObjectId} {cap : Int}
    (h : BlockedAt urls urlId) : BlockedAt (expireIfMaxClicks urls other cap).1 urlId ↔
      ¬(other = urlId ∧ ∃ row, urls.lookup urlId = some row ∧ cap ≤ row.totalClicks) := by
  obtain ⟨row, hrow, hblocked⟩ := h
  have hid : row.id = urlId := (lookup_eq_some_iff.1 hrow).2
  have hlook : (expireIfMaxClicks urls other cap).1.lookup urlId =
      some (applyWhere (maxClicksFilter other cap).Matches setExpired.toUpdate row) := by
    rw [expireIfMaxClicks, lookup_updateMany, hrow, Option.map_some]
  by_cases hsel : other = urlId ∧ cap ≤ row.totalClicks
  · have hmatch : (maxClicksFilter other cap).Matches row = true := by simp [hid, hsel]
    rw [applyWhere_of_matches _ hmatch] at hlook
    refine ⟨?_, fun hnot => absurd ⟨hsel.1, row, hrow, hsel.2⟩ hnot⟩
    rintro ⟨row', hrow', hblocked'⟩
    rw [hlook] at hrow'
    cases hrow'
    cases hblocked'
  · have hmatch : (maxClicksFilter other cap).Matches row = false := by
      rw [matches_maxClicksFilter, hid, Bool.eq_false_iff, ne_eq, Bool.and_eq_true,
        decide_eq_true_eq, decide_eq_true_eq]
      exact fun hmatch => hsel ⟨hmatch.1.symm, hmatch.2⟩
    rw [applyWhere_of_not_matches _ hmatch] at hlook
    refine ⟨fun _ => ?_, fun _ => ⟨row, hlook, hblocked⟩⟩
    rintro ⟨hother, row', hrow', hcap⟩
    rw [hrow] at hrow'
    cases hrow'
    exact hsel ⟨hother, hcap⟩

end UrlRepository

open UrlRepository

/-- No write of an owner changes the status of a BLOCKED link. -/
theorem OwnerSteps.blocked {env : UpdateEnv} {o o' : Option UrlRow} (h : OwnerSteps env o o')
    (ho : ∃ row, o = some row ∧ row.status = .blocked) :
    ∃ row, o' = some row ∧ row.status = .blocked := by
  induction h with
  | refl => exact ho
  | tail _ hstep ih =>
    obtain ⟨row, rfl, hblocked⟩ := ih
    cases hstep with
    | deleted hlive => exact absurd hblocked hlive
    | edited hlive => exact absurd hblocked hlive
    | retagged => exact ⟨_, rfl, hblocked⟩
    | claimed => exact ⟨_, rfl, hblocked⟩

/-! ## Runs -/

/-- Everything that happens to stored links, the safety unblock apart. -/
inductive LinkOp where
  | owner (env : UpdateEnv) (op : OwnerOp)
  | click (lib : UserAgentLib) (context : ClickContext)
  | resolve (data : UrlCacheData) (shortCode : String) (now : Int)
  | blockHost (host reason : String) (now : Int)
  | blockMatching (host : String) (matcher : String → Bool) (reason : String) (now : Int)
  | blockAliases (pairs : List (String × String)) (host reason : String) (now : Int)

variable (edge : EdgeConfig) (cfg : EnforcerConfig)

/-- Run one operation. -/
def LinkOp.run (s : Stores) : LinkOp → Stores
  | .owner env op => op.run edge env s
  | .click lib context => (V2ClickHandler.handle lib context s).2
  | .resolve data shortCode now => (UrlService.raiseIfTimeExpired data shortCode now s).2
  | .blockHost host reason now => (SafetyEnforcer.blockHost cfg host reason now s).1
  | .blockMatching host matcher reason now =>
    (SafetyEnforcer.blockMatching cfg host matcher reason now s).1
  | .blockAliases pairs host reason now =>
    (SafetyEnforcer.blockAliases cfg pairs host reason now s).1

/-- A click on the link is recorded, and brings its count to the limit of the projection it
was served from. -/
def LinkOp.ReachesCap (s : Stores) (urlId : ObjectId) : LinkOp → Prop
  | .click lib context =>
    V2ClickHandler.checkClick lib context = .ok true ∧
      context.urlData.objectId = some urlId ∧
      ∃ cap, context.urlData.maxClicks = some cap ∧ cap ≠ 0 ∧
        ∃ row, s.urls.lookup urlId = some row ∧ cap ≤ row.totalClicks + 1
  | _ => False

theorem V2ClickHandler.urls_expireAtLimit (context : ClickContext) (urlId : ObjectId)
    (s : Stores) : (expireAtLimit context urlId s).urls =
      match context.urlData.maxClicks with
      | some cap => if cap = 0 then s.urls else (expireIfMaxClicks s.urls urlId cap).1
      | none => s.urls := by
  unfold expireAtLimit
  cases context.urlData.maxClicks with
  | none => rfl
  | some cap =>
    dsimp only
    split
    · rfl
    · split <;> rfl

theorem UrlService.blockedAt_raiseIfTimeExpired {data : UrlCacheData} {shortCode : String}
    {now : Int} {s : Stores} {urlId : ObjectId} (h : BlockedAt s.urls urlId) :
    BlockedAt (UrlService.raiseIfTimeExpired data shortCode now s).2.urls urlId := by
  unfold UrlService.raiseIfTimeExpired
  dsimp only
  split
  · exact h
  · split
    · split
      · dsimp only
        split <;> exact blockedAt_expireIfTimeReached h
      · exact h
    · exact h

/-- A recorded click leaves the count it reached. -/
private theorem lookup_incrementClicks {urls : UrlStore} {urlId : ObjectId} {row : UrlRow}
    {time : Int} (hrow : urls.lookup urlId = some row) :
    (incrementClicks urls urlId time).lookup urlId = some ((countClick time).apply row) := by
  have hid : row.id = urlId := (lookup_eq_some_iff.1 hrow).2
  rw [incrementClicks, lookup_updateMany, hrow, Option.map_some,
    applyWhere_of_matches _ (by simp [hid])]

theorem V2ClickHandler.blockedAt_handle_iff {lib : UserAgentLib} {context : ClickContext}
    {s : Stores} {urlId : ObjectId} (h : BlockedAt s.urls urlId) :
    BlockedAt (V2ClickHandler.handle lib context s).2.urls urlId ↔
      ¬(LinkOp.click lib context).ReachesCap s urlId := by
  unfold V2ClickHandler.handle
  split
  · rename_i e hcheck
    exact iff_of_true h fun hcap => by rw [hcap.1] at hcheck; cases hcheck
  · rename_i other hcheck hid
    simp only [urls_expireAtLimit]
    have hcounted : BlockedAt (incrementClicks s.urls other context.clickedAt) urlId :=
      blockedAt_incrementClicks h
    split
    · rename_i cap hcap
      split
      · rename_i hzero
        refine iff_of_true hcounted ?_
        rintro ⟨-, -, cap', hcap', hne, -⟩
        rw [hcap] at hcap'
        exact hne (Option.some.inj hcap' ▸ hzero)
      · rename_i hne
        rw [blockedAt_expireIfMaxClicks_iff hcounted, not_iff_not]
        constructor
        · rintro ⟨rfl, row', hrow', hle⟩
          obtain ⟨row, hrow, -⟩ := h
          rw [lookup_incrementClicks hrow] at hrow'
          cases hrow'
          exact ⟨hcheck, hid, cap, hcap, hne, row, hrow, hle⟩
        · rintro ⟨-, hid', cap', hcap', -, row, hrow, hle⟩
          rw [hid] at hid'
          rw [hcap] at hcap'
          cases hid'
          cases hcap'
          exact ⟨rfl, _, lookup_incrementClicks hrow, hle⟩
    · rename_i hcap
      refine iff_of_true hcounted ?_
      rintro ⟨-, -, cap, hcap', -⟩
      rw [hcap] at hcap'
      cases hcap'
  · rename_i recorded hchecked hother
    refine iff_of_true h ?_
    rintro ⟨hcheck, hid, -⟩
    rw [hchecked] at hcheck
    exact hother urlId hid (Except.ok.inj hcheck)

/-- One operation keeps a BLOCKED link BLOCKED unless it is a click that reaches the limit. -/
theorem LinkOp.blockedAt_run_iff {s : Stores} {urlId : ObjectId} (op : LinkOp)
    (h : BlockedAt s.urls urlId) :
    BlockedAt (op.run edge cfg s).urls urlId ↔ ¬op.ReachesCap s urlId := by
  cases op with
  | owner env op =>
    exact iff_of_true ((op.ownerSteps_run edge env s urlId).blocked h) fun hcap => hcap
  | click lib context => exact V2ClickHandler.blockedAt_handle_iff h
  | resolve =>
    exact iff_of_true (UrlService.blockedAt_raiseIfTimeExpired h) fun hcap => hcap
  | blockHost host reason now =>
    refine iff_of_true ?_ fun hcap => hcap
    exact h.map (lookup_blockActiveByDestHost _ _ _ _ urlId) fun _ _ => status_afterBlock
  | blockMatching host matcher reason now =>
    refine iff_of_true ?_ fun hcap => hcap
    exact h.map (lookup_blockActiveByAliases _ _ _ _ urlId) fun _ _ => status_afterAliases
  | blockAliases pairs host reason now =>
    refine iff_of_true ?_ fun hcap => hcap
    exact h.map (lookup_blockActiveByAliases _ _ _ _ urlId) fun _ _ => status_afterAliases

/-- A BLOCKED link is BLOCKED in every state of a run without unblocks exactly when no click
of the run reaches the limit of its projection on that link. -/
theorem blocked_throughout_iff (s : Stores) (urlId : ObjectId) (ops : List LinkOp)
    (h : BlockedAt s.urls urlId) :
    (∀ t ∈ List.scanl (LinkOp.run edge cfg) s ops, BlockedAt t.urls urlId) ↔
      Run.Guarded (LinkOp.run edge cfg) (fun s op => ¬op.ReachesCap s urlId) s ops := by
  refine Run.forall_mem_scanl_iff (P := fun t : Stores => BlockedAt t.urls urlId) ?_ h
  exact fun t op ht => op.blockedAt_run_iff edge cfg ht

/-- A deployment without an edge. -/
def plainEdge : EdgeConfig where
  enabled := false
  systemDefaultDomain := "spoo.me"
  ogTtlSeconds := 0
  render _ := ""

/-- Every user agent is known and none is a bot. -/
def plainAgents : UserAgentLib where
  isKnown _ := some true
  isBotRequest _ := false

/-- A link that takes one click. -/
def cappedLink : UrlRow := { linkOn 1 "aaa" "a.example" with maxClicks := some 1 }

/-- The stores with the one link. -/
def cappedStores : Stores where
  urls := { docs := [cappedLink], nodup_id := by decide, nodup_key := by decide }
  legacy := .empty
  emoji := .empty

/-- A click that was served from the cache while the link was ACTIVE. -/
def lateClick : LinkOp := .click plainAgents {
  urlData := .fromV2Doc (.fromMongo cappedLink)
  shortCode := "aaa"
  userAgent := "Firefox"
  clickedAt := 0 }

/-- The stores after the host of the link was blocked. -/
def cappedBlocked : Stores :=
  (LinkOp.blockHost "a.example" "phishing" 0).run plainEdge SafetyEnforcer.plainConfig
    cappedStores

theorem blocked_throughout_iff_cappedBlocked :
    (∀ t ∈ List.scanl (LinkOp.run plainEdge SafetyEnforcer.plainConfig) cappedBlocked
        [lateClick], BlockedAt t.urls 1) ↔
      Run.Guarded (LinkOp.run plainEdge SafetyEnforcer.plainConfig)
        (fun s op => ¬op.ReachesCap s 1) cappedBlocked [lateClick] :=
  blocked_throughout_iff plainEdge SafetyEnforcer.plainConfig cappedBlocked 1 _ (by decide)

/-- A click recorded after the block takes the link out of BLOCKED. -/
theorem late_click_expires_blocked_link : BlockedAt cappedBlocked.urls 1 ∧
    ¬BlockedAt (lateClick.run plainEdge SafetyEnforcer.plainConfig cappedBlocked).urls 1 := by
  decide

end Spoo
