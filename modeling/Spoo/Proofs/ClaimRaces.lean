import Spoo.Proofs.OwnerSteps
import Spoo.Services.UrlService.DeleteAll

/-!
# Claims of anonymous links

A link is transferred by a conditional update that tests the owner and the hash of the token and removes
the hash, so that no order of the calls transfers it twice.
-/

namespace Spoo

open Agents Mongo Mongo.Collection UrlService

variable {ι : Type} {hashToken : String → String} {calls : ι → ObjectId × List (ObjectId × String)}

/-- A caller takes an anonymous link over, with a token whose hash is the one that is stored. -/
def ClaimedBy (hashToken : String → String) (call : ObjectId × List (ObjectId × String))
    (urlId : ObjectId) (row row' : UrlRow) : Prop :=
  ∃ token claimedAt, (urlId, token) ∈ call.2 ∧ row.ownerId = anonymousOwnerId ∧
    row.claimTokenHash = some (hashToken token) ∧ call.1 ≠ anonymousOwnerId ∧
    row' = (UrlRepository.transferTo call.1 claimedAt).apply row

/-- A link is as it was, or one of the callers has taken it over. -/
def ClaimedOnce (hashToken : String → String) (calls : ι → ObjectId × List (ObjectId × String))
    (urlId : ObjectId) (before after : Option UrlRow) : Prop :=
  after = before ∨ ∃ i row row', before = some row ∧ after = some row' ∧
    ClaimedBy hashToken (calls i) urlId row row'

/-- Who is told to have claimed a link owns it. -/
def ClaimVerdict (urls : UrlStore) (ownerId : ObjectId) (item : ObjectId × String)
    (status : ClaimStatus) : Prop :=
  status = .claimed → ownerId ≠ anonymousOwnerId ∧
    ∃ row, urls.lookup item.1 = some row ∧ row.ownerId = ownerId

variable {urlId : ObjectId} {before between after : Option UrlRow} {urls urls' : UrlStore}

/-- A link that has an owner is never claimed. -/
theorem ClaimedOnce.of_owned (h : ClaimedOnce hashToken calls urlId before after) {row : UrlRow}
    (hrow : before = some row) (howned : row.ownerId ≠ anonymousOwnerId) : after = some row := by
  rcases h with hsame | ⟨i, row', row'', hbefore, -, -, -, -, hanonymous, -⟩
  · rw [hsame, hrow]
  · rw [hrow, Option.some.injEq] at hbefore
    rw [hbefore] at howned
    exact absurd hanonymous howned

/-- A link that was claimed stays as it is. -/
theorem ClaimedOnce.stays (h : ClaimedOnce hashToken calls urlId before between)
    (h' : ClaimedOnce hashToken calls urlId between after) (hchanged : between ≠ before) :
    after = between := by
  rcases h with hsame | ⟨i, row, row', -, hbetween, token, claimedAt, -, -, -, howner, rfl⟩
  · exact absurd hsame hchanged
  · rw [hbetween]
    exact h'.of_owned hbetween howner

theorem ClaimedOnce.trans (h : ClaimedOnce hashToken calls urlId before between)
    (h' : ClaimedOnce hashToken calls urlId between after) :
    ClaimedOnce hashToken calls urlId before after := by
  by_cases hchanged : between = before
  · rw [hchanged] at h'
    exact h'
  · rw [h.stays h' hchanged]
    exact h

theorem ClaimVerdict.mono (hurls : ∀ other, ClaimedOnce hashToken calls other (urls.lookup other)
    (urls'.lookup other)) {ownerId : ObjectId} {item : ObjectId × String} {status : ClaimStatus}
    (h : ClaimVerdict urls ownerId item status) : ClaimVerdict urls' ownerId item status := by
  intro hstatus
  obtain ⟨howner, row, hrow, heq⟩ := h hstatus
  exact ⟨howner, row, (hurls item.1).of_owned hrow (by rw [heq]; exact howner), heq⟩

/-! ## The conditional update -/

namespace UrlRepository

@[simp] theorem matches_claimFilter (urlId : ObjectId) (tokenHash : String) (row : UrlRow) :
    (claimFilter urlId tokenHash).Matches row = (decide (row.id = urlId) &&
      decide (row.claimTokenHash = some tokenHash) && decide (row.ownerId = anonymousOwnerId)) := by
  simp [claimFilter, Query.Matches, PyDict.ofList, PyDict.assignEntry, idIs, ownerIs, Query.field,
    Bool.and_assoc]

/-- What a transfer does to a link. -/
theorem lookup_claimByTokenHash (urls : UrlStore) (urlId other : ObjectId) (tokenHash : String)
    (newOwnerId : ObjectId) (claimedAt : Int) :
    (claimByTokenHash urls urlId tokenHash newOwnerId claimedAt).1.lookup other = urls.lookup other ∨
      ∃ row, other = urlId ∧ urls.lookup urlId = some row ∧ row.claimTokenHash = some tokenHash ∧
        row.ownerId = anonymousOwnerId ∧
        (claimByTokenHash urls urlId tokenHash newOwnerId claimedAt).1.lookup other =
          some ((transferTo newOwnerId claimedAt).apply row) := by
  rw [claimByTokenHash, lookup_updateMany]
  cases hrow : urls.lookup other with
  | none => exact .inl rfl
  | some row =>
    rw [Option.map_some]
    by_cases hmatch : (claimFilter urlId tokenHash).Matches row = true
    · rw [applyWhere_of_matches _ hmatch]
      simp only [matches_claimFilter, Bool.and_eq_true, decide_eq_true_eq] at hmatch
      obtain ⟨⟨hid, hhash⟩, hanonymous⟩ := hmatch
      have hother : other = urlId := (lookup_eq_some_iff.1 hrow).2.symm.trans hid
      exact .inr ⟨row, hother, hother ▸ hrow, hhash, hanonymous, rfl⟩
    · rw [applyWhere_of_not_matches _ (by simpa using hmatch)]
      exact .inl rfl

/-- A transfer that is reported has taken place. -/
theorem lookup_of_swapped {tokenHash : String} {newOwnerId : ObjectId} {claimedAt : Int}
    (h : (claimByTokenHash urls urlId tokenHash newOwnerId claimedAt).2 = true) :
    ∃ row, (claimByTokenHash urls urlId tokenHash newOwnerId claimedAt).1.lookup urlId =
      some ((transferTo newOwnerId claimedAt).apply row) := by
  obtain ⟨row, hfound⟩ := Option.isSome_iff_exists.1 h
  have hmatch := List.find?_some hfound
  have hrow : urls.lookup urlId = some row := by
    have hid : row.id = urlId := by
      simp only [matches_claimFilter, Bool.and_eq_true, decide_eq_true_eq] at hmatch
      exact hmatch.1.1
    exact lookup_eq_some_iff.2 ⟨List.mem_of_find?_eq_some hfound, hid⟩
  refine ⟨row, ?_⟩
  rw [claimByTokenHash, lookup_updateMany, hrow, Option.map_some, applyWhere_of_matches _ hmatch]

end UrlRepository

/-! ## One move -/

/-- The batch is one of the call, and tells the truth about the items that are settled. -/
def ClaimBatch.Follows (call : ObjectId × List (ObjectId × String)) (urls : UrlStore)
    (batch : ClaimBatch) : Prop :=
  batch.ownerId = call.1 ∧ ∃ settled, call.2 = settled ++ batch.rest ∧
    List.Forall₂ (ClaimVerdict urls call.1) settled batch.results

/-- What is known of a call. -/
def ClaimPhase.Follows (hashToken : String → String) (call : ObjectId × List (ObjectId × String))
    (urls : UrlStore) : ClaimPhase → Prop
  | .called ownerId claims => call = (ownerId, claims)
  | .finding batch => batch.Follows call urls
  | .swapping batch urlId _ tokenHash => batch.Follows call urls ∧ batch.ownerId ≠ anonymousOwnerId ∧
    ∃ token rest, batch.rest = (urlId, token) :: rest ∧ tokenHash = hashToken token
  | .evicting batch _ => batch.Follows call urls ∧
    ∃ item rest, batch.rest = item :: rest ∧ ClaimVerdict urls call.1 item .claimed
  | .done (.ok results) => List.Forall₂ (ClaimVerdict urls call.1) call.2 results
  | .done (.error _) => True

variable {call : ObjectId × List (ObjectId × String)} {batch : ClaimBatch} {phase : ClaimPhase}
  {s : ClaimWorld}

theorem ClaimBatch.Follows.mono (hurls : ∀ other, ClaimedOnce hashToken calls other (urls.lookup other)
    (urls'.lookup other)) (h : batch.Follows call urls) : batch.Follows call urls' := by
  obtain ⟨howner, settled, hcall, hverdicts⟩ := h
  exact ⟨howner, settled, hcall, hverdicts.imp fun _ _ h => h.mono hurls⟩

theorem ClaimPhase.Follows.mono (hurls : ∀ other, ClaimedOnce hashToken calls other (urls.lookup other)
    (urls'.lookup other)) (h : phase.Follows hashToken call urls) : phase.Follows hashToken call urls' := by
  cases phase with
  | called ownerId claims => exact h
  | finding batch => exact ClaimBatch.Follows.mono hurls h
  | swapping batch urlId existing tokenHash => exact ⟨h.1.mono hurls, h.2⟩
  | evicting batch existing =>
    obtain ⟨hbatch, item, rest, hrest, hverdict⟩ := h
    exact ⟨hbatch.mono hurls, item, rest, hrest, hverdict.mono hurls⟩
  | done outcome =>
    cases outcome with
    | ok results => exact List.Forall₂.imp (fun _ _ h => h.mono hurls) h
    | error error => trivial

/-- The next item is settled. -/
theorem ClaimBatch.Follows.settle (h : batch.Follows call urls) {item : ObjectId × String}
    {rest : List (ObjectId × String)} (hrest : batch.rest = item :: rest) {status : ClaimStatus}
    (hstatus : ClaimVerdict urls call.1 item status) : (batch.settle status).Follows call urls := by
  obtain ⟨howner, settled, hcall, hverdicts⟩ := h
  refine ⟨howner, settled ++ [item], ?_, ?_⟩
  · rw [hcall, ClaimBatch.settle, hrest]
    simp
  · exact List.rel_append hverdicts (.cons hstatus .nil)

theorem follows_checkClaim (h : batch.Follows call urls) {item : ObjectId × String}
    {rest : List (ObjectId × String)} (hrest : batch.rest = item :: rest) (found : Option UrlV2Doc) :
    (checkClaim hashToken batch item found).Follows hashToken call urls := by
  have hinvalid : (batch.settle .invalid).Follows call urls := h.settle hrest fun hstatus => by cases hstatus
  cases found with
  | none => exact hinvalid
  | some existing =>
    unfold checkClaim refusedClaim
    dsimp only
    by_cases hmine : existing.ownerId = batch.ownerId
    · rw [if_pos hmine]
      exact h.settle hrest fun hstatus => by cases hstatus
    rw [if_neg hmine]
    by_cases hforeign : existing.ownerId ≠ anonymousOwnerId ∨ existing.claimTokenHash.getD "" = ""
    · rw [if_pos hforeign]
      exact hinvalid
    rw [if_neg hforeign]
    by_cases hwrong : existing.claimTokenHash ≠ some (hashToken item.2)
    · rw [if_pos hwrong]
      exact hinvalid
    rw [if_neg hwrong]
    have hanonymous : existing.ownerId = anonymousOwnerId := not_not.1 (not_or.1 hforeign).1
    exact ⟨h, fun howner => hmine (by rw [howner, hanonymous]), item.2, rest, hrest, rfl⟩

/-- What one move of a call does to the links, and what is known of the call after it. -/
theorem follows_claimMove (i : ι) (h : phase.Follows hashToken (calls i) s.stores.urls) :
    (∀ other, ClaimedOnce hashToken calls other (s.stores.urls.lookup other)
      ((claimMove hashToken phase s).2.stores.urls.lookup other)) ∧
      (claimMove hashToken phase s).1.Follows hashToken (calls i)
        (claimMove hashToken phase s).2.stores.urls := by
  have hsame : ∀ other, ClaimedOnce hashToken calls other (s.stores.urls.lookup other)
    (s.stores.urls.lookup other) := fun _ => .inl rfl
  cases phase with
  | called ownerId claims =>
    unfold claimMove
    dsimp only
    split
    · exact ⟨hsame, trivial⟩
    · exact ⟨hsame, by rw [h], [], by rw [h]; rfl, .nil⟩
  | finding batch =>
    unfold claimMove
    dsimp only
    cases hrest : batch.rest with
    | nil =>
      obtain ⟨-, settled, hcall, hverdicts⟩ := h
      rw [hrest, List.append_nil] at hcall
      refine ⟨hsame, ?_⟩
      change List.Forall₂ _ (calls i).2 _
      rw [hcall]
      exact hverdicts
    | cons item rest => exact ⟨hsame, follows_checkClaim h hrest _⟩
  | swapping batch urlId existing tokenHash =>
    obtain ⟨hbatch, howner, token, rest, hrest, rfl⟩ := h
    have hmine : batch.ownerId = (calls i).1 := hbatch.1
    unfold claimMove
    dsimp only
    split
    · rename_i hswapped
      have hlinks : ∀ other, ClaimedOnce hashToken calls other (s.stores.urls.lookup other)
          ((UrlRepository.claimByTokenHash s.stores.urls urlId (hashToken token) batch.ownerId
            batch.now).1.lookup other) := by
        intro other
        rcases UrlRepository.lookup_claimByTokenHash s.stores.urls urlId other (hashToken token)
          batch.ownerId batch.now with hkept | ⟨row, rfl, hrow, hhash, hanonymous, htaken⟩
        · exact .inl hkept
        · obtain ⟨settled, hcall, -⟩ := hbatch.2
          have hitem : (other, token) ∈ (calls i).2 := by
            rw [hcall, hrest]
            simp
          exact .inr ⟨i, row, _, hrow, htaken, token, batch.now, hitem, hanonymous, hhash,
            hmine ▸ howner, by rw [hmine]⟩
      obtain ⟨row, hrow⟩ := UrlRepository.lookup_of_swapped hswapped
      exact ⟨hlinks, hbatch.mono hlinks, (urlId, token), rest, hrest, fun _ => ⟨hmine ▸ howner,
        _, hrow, hmine⟩⟩
    · exact ⟨hsame, hbatch.settle hrest fun hstatus => by cases hstatus⟩
  | evicting batch existing =>
    obtain ⟨hbatch, item, rest, hrest, hverdict⟩ := h
    exact ⟨hsame, hbatch.settle hrest hverdict⟩
  | done outcome => exact ⟨hsame, h⟩

/-! ## Runs -/

variable [DecidableEq ι]

/-- Calls that have not begun. -/
def claimsFrom (calls : ι → ObjectId × List (ObjectId × String)) (s : ClaimWorld) :
    Pool ι ClaimPhase ClaimWorld where
  agents i := .called (calls i).1 (calls i).2
  shared := s

/-- The state after some moves, each some time after the one before. -/
def claimsAfter (hashToken : String → String) (calls : ι → ObjectId × List (ObjectId × String))
    (s : ClaimWorld) (events : List (ι × Nat)) : Pool ι ClaimPhase ClaimWorld :=
  events.foldl (Pool.step (ClaimPhase.move hashToken)) (claimsFrom calls s)

/-- All is known of the calls that is to be known. -/
def ClaimsSound (hashToken : String → String) (calls : ι → ObjectId × List (ObjectId × String))
    (pool : Pool ι ClaimPhase ClaimWorld) : Prop :=
  ∀ i, (pool.agents i).Follows hashToken (calls i) pool.shared.stores.urls

theorem ClaimsSound.step {pool : Pool ι ClaimPhase ClaimWorld} (h : ClaimsSound hashToken calls pool)
    (event : ι × Nat) :
    (∀ urlId, ClaimedOnce hashToken calls urlId (pool.shared.stores.urls.lookup urlId)
      ((pool.step (ClaimPhase.move hashToken) event).shared.stores.urls.lookup urlId)) ∧
      ClaimsSound hashToken calls (pool.step (ClaimPhase.move hashToken) event) := by
  obtain ⟨hlinks, hown⟩ := follows_claimMove (s := pool.shared.wait event.2) event.1 (h event.1)
  exact ⟨hlinks, Pool.forall_agents_step
    (Q := fun i (phase : ClaimPhase) => phase.Follows hashToken (calls i)
      (pool.step (ClaimPhase.move hashToken) event).shared.stores.urls)
    hown fun j _ => (h j).mono hlinks⟩

theorem claimsSound_after (s : ClaimWorld) (events : List (ι × Nat)) :
    ClaimsSound hashToken calls (claimsAfter hashToken calls s events) :=
  List.foldlRecOn events _ (motive := ClaimsSound hashToken calls) (fun _ => rfl)
    fun _ h event _ => (h.step event).2

/-- What happens to a link between two moments of a run. -/
theorem claimedOnce_between (s : ClaimWorld) (before after : List (ι × Nat)) (urlId : ObjectId) :
    ClaimedOnce hashToken calls urlId
      ((claimsAfter hashToken calls s before).shared.stores.urls.lookup urlId)
      ((claimsAfter hashToken calls s (before ++ after)).shared.stores.urls.lookup urlId) := by
  induction after using List.reverseRecOn with
  | nil =>
    rw [List.append_nil]
    exact .inl rfl
  | append_singleton after event ih =>
    have hsound : ClaimsSound hashToken calls (claimsAfter hashToken calls s (before ++ after)) :=
      claimsSound_after s (before ++ after)
    have hlast := (hsound.step event).1 urlId
    have hstep : claimsAfter hashToken calls s (before ++ (after ++ [event])) =
        (claimsAfter hashToken calls s (before ++ after)).step (ClaimPhase.move hashToken) event := by
      unfold claimsAfter
      rw [← List.append_assoc, List.foldl_append, List.foldl_cons, List.foldl_nil]
    rw [hstep]
    exact ih.trans hlast

/-- In whatever order the calls of any claim batches go on, and between any two moments: a link is as it
was, or it was anonymous and belongs to a caller who has presented a token whose hash was the stored one.
A link that has changed does so no more, a link that has an owner stays as it is, whoever claims it, and
who is told to have claimed a link owns it. -/
theorem claims_transfer_once (hashToken : String → String)
    (calls : ι → ObjectId × List (ObjectId × String)) (s : ClaimWorld)
    (before between after : List (ι × Nat)) :
    (∀ urlId, ClaimedOnce hashToken calls urlId
      ((claimsAfter hashToken calls s before).shared.stores.urls.lookup urlId)
      ((claimsAfter hashToken calls s (before ++ between)).shared.stores.urls.lookup urlId)) ∧
    (∀ urlId, (claimsAfter hashToken calls s (before ++ between)).shared.stores.urls.lookup urlId ≠
        (claimsAfter hashToken calls s before).shared.stores.urls.lookup urlId →
      (claimsAfter hashToken calls s (before ++ between ++ after)).shared.stores.urls.lookup urlId =
        (claimsAfter hashToken calls s (before ++ between)).shared.stores.urls.lookup urlId) ∧
    (∀ urlId row, (claimsAfter hashToken calls s before).shared.stores.urls.lookup urlId = some row →
      row.ownerId ≠ anonymousOwnerId →
      (claimsAfter hashToken calls s (before ++ between)).shared.stores.urls.lookup urlId = some row) ∧
    ∀ i results, (claimsAfter hashToken calls s before).agents i = .done (.ok results) →
      List.Forall₂ (ClaimVerdict (claimsAfter hashToken calls s before).shared.stores.urls (calls i).1)
        (calls i).2 results := by
  refine ⟨claimedOnce_between s before between, fun urlId hchanged => ?_, fun urlId row hrow howned => ?_,
    fun i results hdone => ?_⟩
  · exact (claimedOnce_between s before between urlId).stays
      (claimedOnce_between s (before ++ between) after urlId) hchanged
  · have hclaimed : ClaimedOnce hashToken calls urlId _ _ := claimedOnce_between s before between urlId
    exact hclaimed.of_owned hrow howned
  · have hsound : ClaimsSound hashToken calls (claimsAfter hashToken calls s before) :=
      claimsSound_after s before
    have hsound := hsound i
    rw [hdone] at hsound
    exact hsound

end Spoo
