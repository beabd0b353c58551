import Mathlib.Data.Fintype.Basic
import Spoo.Services.UrlService.DeleteAll

/-!
# What an erasure leaves of a user's links

The links that an erasure retains are scrubbed, unless a block comes to a link between the scrub, which
takes blocked links only, and the deletion, which leaves blocked links alone.
-/

namespace Spoo

open Agents Mongo Mongo.Collection UrlRepository

/-- A link without the data of a person: no creation IP, no password hash and no IP of an update. -/
def UrlRow.Scrubbed (row : UrlRow) : Prop :=
  row.creationIp = none ∧ row.password = none ∧ ∀ tags ∈ row.metaTags, tags.updatedIp = none

instance (row : UrlRow) : Decidable row.Scrubbed := inferInstanceAs (Decidable (_ ∧ _ ∧ _))

/-- The owner whose links an agent has erased. -/
def LinkAgent.erased : LinkAgent → Option ObjectId
  | .eraser (.done ownerId _) => some ownerId
  | _ => none

variable {ι : Type}

/-- Where an erasure has finished, the links of its owner that remain are scrubbed. -/
def RemainingScrubbed (pool : Pool ι LinkAgent Stores) : Prop :=
  ∀ who, ∀ ownerId ∈ (pool.agents who).erased,
    ∀ row ∈ pool.shared.urls.docs, row.ownerId = ownerId → row.Scrubbed

/-- The scrub of an erasure has come to the link, and its deletion has not. -/
def LinkAgent.Between (agent : LinkAgent) (ownerId urlId : ObjectId) : Prop :=
  match agent with
  | .eraser (.scrubbing owner rest _ _) => owner = ownerId ∧ urlId ∉ rest
  | .eraser (.deleting owner rest _ _ _) => owner = ownerId ∧ urlId ∈ rest
  | _ => False

instance (agent : LinkAgent) (ownerId urlId : ObjectId) : Decidable (agent.Between ownerId urlId) := by
  cases agent with
  | eraser erasure =>
    cases erasure with
    | scrubbing owner rest => exact inferInstanceAs (Decidable (owner = ownerId ∧ urlId ∉ rest))
    | deleting owner rest => exact inferInstanceAs (Decidable (owner = ownerId ∧ urlId ∈ rest))
    | _ => exact inferInstanceAs (Decidable False)
  | blocker => exact inferInstanceAs (Decidable False)

/-- The link that a move blocks. -/
def blockedRow (choice : LinkChoice) (agent : LinkAgent) (urls : UrlStore) : Option UrlRow :=
  match agent, choice with
  | .blocker (.writing write rest _), .visit urlId =>
    if urlId ∈ rest then
      (urls.lookup urlId).filter fun row => write.filter.Matches row && decide (row.status ≠ .blocked)
    else none
  | _, _ => none

/-- No block comes to a link with data of its owner while an erasure is between its scrub and its
deletion of the link. -/
def BlocksElsewhere (pool : Pool ι LinkAgent Stores) (event : ι × LinkAnswer) : Prop :=
  ∀ row ∈ blockedRow event.2.choice (pool.agents event.1) pool.shared.urls,
    ∀ who, (pool.agents who).Between row.ownerId row.id → row.Scrubbed

instance [Fintype ι] (pool : Pool ι LinkAgent Stores) (event : ι × LinkAnswer) :
    Decidable (BlocksElsewhere pool event) := by
  unfold BlocksElsewhere
  infer_instance

instance [Fintype ι] (pool : Pool ι LinkAgent Stores) : Decidable (RemainingScrubbed pool) := by
  unfold RemainingScrubbed
  infer_instance

/-! ## What a move does to the links -/

/-- What becomes of a link in a write. -/
structure RowKept (row row' : UrlRow) : Prop where
  id : row'.id = row.id
  owner : row'.ownerId = row.ownerId
  scrubbed : row.Scrubbed → row'.Scrubbed

/-- Every link that is stored was stored before, with the same status unless it is the one that is
blocked. -/
def RowsKept (blocked : Option UrlRow) (urls urls' : UrlStore) : Prop :=
  ∀ row' ∈ urls'.docs, ∃ row ∈ urls.docs, RowKept row row' ∧
    (row'.status = row.status ∨ blocked = some row)

theorem rowKept_refl (row : UrlRow) : RowKept row row := ⟨rfl, rfl, id⟩

theorem rowsKept_refl (blocked : Option UrlRow) (urls : UrlStore) : RowsKept blocked urls urls :=
  fun row hrow => ⟨row, hrow, rowKept_refl row, .inl rfl⟩

theorem scrubbed_unsetPii (row : UrlRow) : (unsetPii.apply row).Scrubbed := by
  refine ⟨rfl, rfl, fun tags htags => ?_⟩
  obtain ⟨old, -, rfl⟩ := Option.map_eq_some_iff.1 htags
  rfl

/-- A write of the enforcer leaves what a link says of its creator, and releases no link. -/
def BulkWrite.IsBlock (write : BulkWrite) : Prop :=
  ∀ row, RowKept row (write.update.apply row) ∧
    ((write.update.apply row).status = row.status ∨ row.status ≠ .blocked)

theorem isBlock_blockWith (filter : UrlQuery) (reason : String) (hosts : DocField (List String))
    (now : Int) : BulkWrite.IsBlock ⟨filter, blockWith reason hosts now⟩ := by
  intro row
  refine ⟨⟨rfl, rfl, id⟩, ?_⟩
  by_cases hstatus : row.status = .blocked
  · exact .inl hstatus.symm
  · exact .inr hstatus

theorem isBlock_addCause (filter : UrlQuery) (host : String) :
    BulkWrite.IsBlock ⟨filter, addCause host⟩ :=
  fun _ => ⟨⟨rfl, rfl, id⟩, .inl rfl⟩

theorem isBlock_of_mem_destHostWrites {host reason : String} {now : Int} {write : BulkWrite}
    (h : write ∈ destHostWrites host reason now) : write.IsBlock := by
  rcases List.mem_cons.1 h with rfl | h
  · exact isBlock_blockWith _ _ _ _
  · cases List.mem_singleton.1 h
    exact isBlock_addCause _ _

theorem isBlock_of_mem_aliasesWrites {pairs : List (String × String)} {reason : String} {now : Int}
    {write : BulkWrite} (h : write ∈ aliasesWrites pairs reason now) : write.IsBlock := by
  obtain ⟨chunk, -, rfl⟩ := List.mem_map.1 h
  exact isBlock_blockWith _ _ _ _

/-- What becomes of the links when a write comes to one. -/
theorem rowsKept_updateOne {urls : UrlStore} {urlId : ObjectId} {q : UrlRow → Bool}
    {update : KeyedUpdate UrlRow} {blocked : Option UrlRow}
    (hrow : ∀ row, urls.lookup urlId = some row → q row = true → RowKept row (update.apply row) ∧
      ((update.apply row).status = row.status ∨ blocked = some row)) :
    RowsKept blocked urls (urls.updateOne urlId q update) := by
  intro row' hrow'
  obtain ⟨row, hmem, ⟨⟨hid, hpasses⟩, rfl⟩ | ⟨-, rfl⟩⟩ := mem_updateOne hrow'
  · exact ⟨row, hmem, hrow row (lookup_eq_some_iff.2 ⟨hmem, hid⟩) hpasses⟩
  · exact ⟨row', hmem, rowKept_refl row', .inl rfl⟩

theorem rowsKept_deleteMany (urls : UrlStore) (q : UrlRow → Bool) :
    RowsKept none urls (urls.deleteMany q) :=
  fun row hrow => ⟨row, (List.mem_filter.1 hrow).1, rowKept_refl row, .inl rfl⟩

/-- What an erasure can do. -/
inductive ErasureMoved (urls : UrlStore) : LinkErasure → LinkErasure → UrlStore → Prop
  | stays (erasure : LinkErasure) : ErasureMoved urls erasure erasure urls
  | stops (erasure : LinkErasure) : ErasureMoved urls erasure .idle urls
  | starts (ownerId : ObjectId) (rest urlIds : List ObjectId) (erasure : LinkErasure) :
      ErasureMoved urls erasure (.purging ownerId rest urlIds) urls
  | purged (ownerId : ObjectId) (urlIds : List ObjectId) (erasure : LinkErasure) :
      ErasureMoved urls erasure (.scrubbing ownerId (scanned urls) urlIds 0) urls
  | scrubs (ownerId urlId : ObjectId) (rest urlIds : List ObjectId) (before after : Nat) :
      ErasureMoved urls (.scrubbing ownerId rest urlIds before)
        (.scrubbing ownerId (rest.erase urlId) urlIds after)
        (urls.updateOne urlId (blockedOwnerFilter ownerId).Matches unsetPii)
  | scrubbed (ownerId : ObjectId) (urlIds : List ObjectId) (blockedRetained : Nat) :
      ErasureMoved urls (.scrubbing ownerId [] urlIds blockedRetained)
        (.deleting ownerId (scanned urls) urlIds blockedRetained 0) urls
  | deletes (ownerId urlId : ObjectId) (rest urlIds : List ObjectId)
      (blockedRetained before after : Nat) :
      ErasureMoved urls (.deleting ownerId rest urlIds blockedRetained before)
        (.deleting ownerId (rest.erase urlId) urlIds blockedRetained after)
        (urls.deleteMany fun row => row.id = urlId && (unblockedOwnerFilter ownerId).Matches row)
  | finishes (ownerId : ObjectId) (urlIds : List ObjectId) (blockedRetained deleted : Nat) :
      ErasureMoved urls (.deleting ownerId [] urlIds blockedRetained deleted)
        (.done ownerId ⟨deleted, blockedRetained, urlIds⟩) urls

theorem erasureMoved_erase (edge : EdgeConfig) (answer : LinkAnswer) (erasure : LinkErasure)
    (s : Stores) :
    ErasureMoved s.urls erasure (UrlService.erase edge answer erasure s).1
      (UrlService.erase edge answer erasure s).2.urls := by
  obtain ⟨now, choice⟩ := answer
  cases erasure with
  | idle =>
    cases choice with
    | erase ownerId =>
      simp only [UrlService.erase]
      split_ifs
      · exact .stays _
      · exact .starts ..
    | _ => exact .stays _
  | purging ownerId rest urlIds =>
    cases choice with
    | visit urlId =>
      simp only [UrlService.erase]
      split_ifs
      · split
        · exact .starts ..
        · exact .starts ..
      · exact .stays _
    | go =>
      simp only [UrlService.erase]
      split_ifs
      · exact .purged ..
      · exact .stays _
    | fail => exact .stops _
    | _ => exact .stays _
  | scrubbing ownerId rest urlIds blockedRetained =>
    cases choice with
    | visit urlId =>
      simp only [UrlService.erase]
      split_ifs
      · exact .scrubs ..
      · exact .stays _
    | go =>
      simp only [UrlService.erase]
      split_ifs with hrest
      · subst hrest
        exact .scrubbed ..
      · exact .stays _
    | fail => exact .stops _
    | _ => exact .stays _
  | deleting ownerId rest urlIds blockedRetained deleted =>
    cases choice with
    | visit urlId =>
      simp only [UrlService.erase]
      split_ifs
      · exact .deletes ..
      · exact .stays _
    | go =>
      simp only [UrlService.erase]
      split_ifs with hrest
      · subst hrest
        exact .finishes ..
      · exact .stays _
    | fail => exact .stops _
    | _ => exact .stays _
  | done ownerId result => exact .stays _

/-! ## Runs -/

/-- What an agent knows of the links: the ones that a scan has come to are in order. -/
def LinkKnows (agent : LinkAgent) (urls : UrlStore) : Prop :=
  match agent with
  | .eraser (.scrubbing ownerId rest _ _) =>
    ∀ row ∈ urls.docs, row.ownerId = ownerId → row.id ∈ rest ∨ row.status ≠ .blocked ∨ row.Scrubbed
  | .eraser (.deleting ownerId rest _ _ _) =>
    ∀ row ∈ urls.docs, row.ownerId = ownerId →
      row.status ≠ .blocked ∧ row.id ∈ rest ∨ row.Scrubbed
  | .eraser (.done ownerId _) => ∀ row ∈ urls.docs, row.ownerId = ownerId → row.Scrubbed
  | .blocker (.writing write _ later) => ∀ each ∈ write :: later, each.IsBlock
  | _ => True

/-- A move of another leaves what an agent knows, unless it blocks a link between the agent's scans. -/
theorem LinkKnows.of_rowsKept {agent : LinkAgent} {urls urls' : UrlStore} {blocked : Option UrlRow}
    (h : LinkKnows agent urls) (hkept : RowsKept blocked urls urls')
    (hblocked : ∀ row ∈ blocked, agent.Between row.ownerId row.id → row.Scrubbed) :
    LinkKnows agent urls' := by
  cases agent with
  | eraser erasure =>
    cases erasure with
    | scrubbing ownerId rest =>
      intro row' hrow' howner
      obtain ⟨row, hrow, hsame, hstatus⟩ := hkept row' hrow'
      have howner' : row.ownerId = ownerId := hsame.owner.symm.trans howner
      rw [hsame.id]
      rcases h row hrow howner' with hrest | hunblocked | hscrubbed
      · exact .inl hrest
      · rcases hstatus with hstatus | hflipped
        · exact .inr (.inl (hstatus ▸ hunblocked))
        · by_cases hrest : row.id ∈ rest
          · exact .inl hrest
          · exact .inr (.inr (hsame.scrubbed (hblocked row hflipped ⟨howner'.symm, hrest⟩)))
      · exact .inr (.inr (hsame.scrubbed hscrubbed))
    | deleting ownerId rest =>
      intro row' hrow' howner
      obtain ⟨row, hrow, hsame, hstatus⟩ := hkept row' hrow'
      have howner' : row.ownerId = ownerId := hsame.owner.symm.trans howner
      rw [hsame.id]
      rcases h row hrow howner' with ⟨hunblocked, hrest⟩ | hscrubbed
      · rcases hstatus with hstatus | hflipped
        · exact .inl ⟨hstatus ▸ hunblocked, hrest⟩
        · exact .inr (hsame.scrubbed (hblocked row hflipped ⟨howner'.symm, hrest⟩))
      · exact .inr (hsame.scrubbed hscrubbed)
    | done ownerId result =>
      intro row' hrow' howner
      obtain ⟨row, hrow, hsame, -⟩ := hkept row' hrow'
      exact hsame.scrubbed (h row hrow (hsame.owner.symm.trans howner))
    | _ => trivial
  | blocker block => cases block <;> exact h

/-- A scan that begins has every link before it. -/
theorem mem_scanned {urls : UrlStore} {row : UrlRow} (h : row ∈ urls.docs) : row.id ∈ scanned urls :=
  List.mem_map.2 ⟨row, h, rfl⟩

/-- An erasure blocks nothing. -/
theorem ErasureMoved.rowsKept {urls urls' : UrlStore} {erasure erasure' : LinkErasure}
    (hm : ErasureMoved urls erasure erasure' urls') : RowsKept none urls urls' := by
  cases hm with
  | scrubs =>
    exact rowsKept_updateOne fun row _ _ => ⟨⟨rfl, rfl, fun _ => scrubbed_unsetPii row⟩, .inl rfl⟩
  | deletes => exact rowsKept_deleteMany urls _
  | _ => exact rowsKept_refl none urls

theorem ErasureMoved.knows {urls urls' : UrlStore} {erasure erasure' : LinkErasure}
    (hm : ErasureMoved urls erasure erasure' urls') (h : LinkKnows (.eraser erasure) urls) :
    LinkKnows (.eraser erasure') urls' := by
  cases hm with
  | stays => exact h
  | stops => trivial
  | starts => trivial
  | purged => exact fun row hrow _ => .inl (mem_scanned hrow)
  | scrubs ownerId urlId rest =>
    intro row' hrow' howner
    obtain ⟨row, hrow, ⟨-, rfl⟩ | ⟨hnot, rfl⟩⟩ := mem_updateOne hrow'
    · exact .inr (.inr (scrubbed_unsetPii row))
    · by_cases hid : row'.id = urlId
      · -- A link that the scrub passes over is not blocked.
        have hunblocked : row'.status ≠ .blocked := by
          intro hstatus
          exact hnot ⟨hid, by simp [howner, hstatus]⟩
        exact .inr (.inl hunblocked)
      · rcases h row' hrow howner with hrest | hother
        · exact .inl ((List.mem_erase_of_ne hid).2 hrest)
        · exact .inr hother
  | scrubbed ownerId =>
    intro row hrow howner
    rcases h row hrow howner with hrest | hunblocked | hscrubbed
    · cases hrest
    · exact .inl ⟨hunblocked, mem_scanned hrow⟩
    · exact .inr hscrubbed
  | deletes ownerId urlId rest =>
    intro row hrow howner
    obtain ⟨hmem, hnot⟩ := List.mem_filter.1 hrow
    rcases h row hmem howner with ⟨hunblocked, hrest⟩ | hscrubbed
    · have hid : row.id ≠ urlId := by
        rintro rfl
        simp [howner, hunblocked] at hnot
      exact .inl ⟨hunblocked, (List.mem_erase_of_ne hid).2 hrest⟩
    · exact .inr hscrubbed
  | finishes ownerId =>
    intro row hrow howner
    rcases h row hrow howner with ⟨-, hrest⟩ | hscrubbed
    · cases hrest
    · exact hscrubbed

theorem linkKnows_begin {writes : List BulkWrite} (h : ∀ write ∈ writes, write.IsBlock)
    (urls urls' : UrlStore) : LinkKnows (.blocker (.begin writes urls)) urls' := by
  cases writes with
  | nil => trivial
  | cons write later => exact h

/-- A move of a block writes to the link that it is said to block, and to no other. -/
theorem safetyBlock_move (answer : LinkAnswer) (block : SafetyBlock) (s : Stores)
    (h : LinkKnows (.blocker block) s.urls) :
    RowsKept (blockedRow answer.choice (.blocker block) s.urls) s.urls
      (SafetyBlock.move answer block s).2.urls ∧
    LinkKnows (.blocker (SafetyBlock.move answer block s).1)
      (SafetyBlock.move answer block s).2.urls := by
  obtain ⟨now, choice⟩ := answer
  cases block with
  | idle =>
    refine ⟨?_, ?_⟩
    · cases choice <;> exact rowsKept_refl _ s.urls
    · cases choice with
      | blockHost => exact linkKnows_begin (fun _ => isBlock_of_mem_destHostWrites) _ _
      | blockAliases => exact linkKnows_begin (fun _ => isBlock_of_mem_aliasesWrites) _ _
      | _ => trivial
  | writing write rest later =>
    cases choice with
    | visit urlId =>
      simp only [SafetyBlock.move, blockedRow]
      split_ifs with hrest
      · refine ⟨rowsKept_updateOne fun row hrow hpasses => ?_, h⟩
        obtain ⟨hsame, hstatus⟩ := h write List.mem_cons_self row
        refine ⟨hsame, hstatus.imp_right fun hunblocked => ?_⟩
        rw [hrow]
        simp [hpasses, hunblocked]
      · exact ⟨rowsKept_refl _ s.urls, h⟩
    | go =>
      simp only [SafetyBlock.move]
      split_ifs
      · exact ⟨rowsKept_refl _ s.urls,
          linkKnows_begin (fun each heach => h each (List.mem_cons_of_mem _ heach)) _ _⟩
      · exact ⟨rowsKept_refl _ s.urls, h⟩
    | fail => exact ⟨rowsKept_refl _ s.urls, trivial⟩
    | _ => exact ⟨rowsKept_refl _ s.urls, h⟩

section

variable [DecidableEq ι] {edge : EdgeConfig}

/-- What all agents know, a move that blocks nothing between the scans of an erasure leaves so. -/
theorem linkKnows_step (pool : Pool ι LinkAgent Stores) (event : ι × LinkAnswer)
    (h : ∀ who, LinkKnows (pool.agents who) pool.shared.urls) (hguard : BlocksElsewhere pool event) :
    ∀ who, LinkKnows ((pool.step (LinkAgent.move edge) event).agents who)
      (pool.step (LinkAgent.move edge) event).shared.urls := by
  have hmoved : RowsKept (blockedRow event.2.choice (pool.agents event.1) pool.shared.urls)
        pool.shared.urls (LinkAgent.move edge event.1 event.2 (pool.agents event.1) pool.shared).2.urls ∧
      LinkKnows (LinkAgent.move edge event.1 event.2 (pool.agents event.1) pool.shared).1
        (LinkAgent.move edge event.1 event.2 (pool.agents event.1) pool.shared).2.urls := by
    have hknows := h event.1
    cases hagent : pool.agents event.1 with
    | eraser erasure =>
      rw [hagent] at hknows
      have hm := erasureMoved_erase edge event.2 erasure pool.shared
      exact ⟨hm.rowsKept, hm.knows hknows⟩
    | blocker block =>
      rw [hagent] at hknows
      exact safetyBlock_move event.2 block pool.shared hknows
  exact Pool.forall_agents_step (Q := fun _ agent => LinkKnows agent _) hmoved.2 fun who _ =>
    (h who).of_rowsKept hmoved.1 fun row hrow => hguard row hrow who

end

/-- In every run in which no block comes to a link between the scrub and the deletion of an erasure,
what an erasure leaves is scrubbed. -/
theorem remaining_scrubbed [DecidableEq ι] (edge : EdgeConfig) (pool : Pool ι LinkAgent Stores)
    (events : List (ι × LinkAnswer))
    (hidle : ∀ who, pool.agents who = .eraser .idle ∨ pool.agents who = .blocker .idle)
    (hguard : Run.Guarded (Pool.step (LinkAgent.move edge)) BlocksElsewhere pool events) :
    ∀ t ∈ List.scanl (Pool.step (LinkAgent.move edge)) pool events, RemainingScrubbed t := by
  have hstart : ∀ who, LinkKnows (pool.agents who) pool.shared.urls := by
    intro who
    rcases hidle who with hagent | hagent <;> rw [hagent] <;> trivial
  intro t ht who ownerId herased row hrow howner
  have hknows := Run.forall_mem_scanl linkKnows_step hstart hguard t ht who
  cases hagent : t.agents who with
  | eraser erasure =>
    rw [hagent] at herased hknows
    cases erasure with
    | done owner result =>
      cases herased
      exact hknows row hrow howner
    | _ => cases herased
  | blocker =>
    rw [hagent] at herased
    cases herased

/-- A deployment without an edge. -/
def noEdge : EdgeConfig where
  enabled := false
  systemDefaultDomain := "spoo.me"
  ogTtlSeconds := 0
  render _ := ""

/-- An erasure and a block that have not begun, and a link of the user. -/
def oneLink : Pool Bool LinkAgent Stores where
  agents who := if who then .eraser .idle else .blocker .idle
  shared := {
    urls := .single {
      id := 7
      linkAlias := "abc"
      ownerId := 1
      domain := "spoo.me"
      creationIp := some "203.0.113.7"
      longUrl := "https://example.com" }
    legacy := .empty
    emoji := .empty }

/-- The link is blocked before the scrub comes to it. -/
def blockedFirst : List (Bool × LinkAnswer) :=
  [(true, ⟨0, .erase 1⟩), (true, ⟨0, .visit 7⟩), (false, ⟨1, .blockAliases [("abc", "spoo.me")] "phishing"⟩),
    (false, ⟨1, .visit 7⟩), (true, ⟨2, .go⟩), (true, ⟨2, .visit 7⟩), (true, ⟨2, .go⟩),
    (true, ⟨2, .visit 7⟩), (true, ⟨2, .go⟩)]

theorem remaining_scrubbed_blockedFirst :
    Run.Guarded (Pool.step (LinkAgent.move noEdge)) BlocksElsewhere oneLink blockedFirst ∧
    ∀ t ∈ List.scanl (Pool.step (LinkAgent.move noEdge)) oneLink blockedFirst, RemainingScrubbed t := by
  have hguard : Run.Guarded (Pool.step (LinkAgent.move noEdge)) BlocksElsewhere oneLink blockedFirst := by
    decide +kernel
  exact ⟨hguard, remaining_scrubbed noEdge oneLink blockedFirst (fun who => by cases who <;> simp [oneLink])
    hguard⟩

/-- The block comes between the scrub and the deletion, and the link keeps the IP of its creator. -/
theorem unscrubbed_blockedBetween :
    ∃ t ∈ List.scanl (Pool.step (LinkAgent.move noEdge)) oneLink
      [(true, ⟨0, .erase 1⟩), (true, ⟨0, .visit 7⟩), (true, ⟨0, .go⟩), (true, ⟨0, .visit 7⟩),
        (true, ⟨0, .go⟩), (false, ⟨1, .blockAliases [("abc", "spoo.me")] "phishing"⟩),
        (false, ⟨1, .visit 7⟩), (true, ⟨2, .visit 7⟩), (true, ⟨2, .go⟩)], ¬ RemainingScrubbed t := by
  decide +kernel

end Spoo
