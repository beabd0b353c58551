import Spoo.Proofs.BlockedLinks

/-!
# An owner's edit racing a safety block

An owner's method reads a link, decides, and writes by id; a safety block flips the link in
between. Both run as interleaved processes, one repository call at a time. The block is lost
exactly when its write falls between the owner's read and the owner's write, and the write
deletes or deactivates the link.
-/

namespace Spoo

open Interleave Mongo Mongo.Collection UrlRepository

/-! ## The two processes -/

inductive Actor where
  | owner
  | safety
  deriving DecidableEq

/-- The owner's methods that check BLOCKED on a document they read earlier. -/
inductive OwnerCall where
  | update (env : UpdateEnv) (edge : EdgeConfig) (urlId : ObjectId) (request : UpdateUrlRequest)
      (ownerId : ObjectId) (clientIp : Option String) (now : Int)
  | delete (edge : EdgeConfig) (urlId ownerId : ObjectId)
  | bulkDelete (edge : EdgeConfig) (ids : List ObjectId) (ownerId : ObjectId) (now : Int)
  | bulkSetStatus (edge : EdgeConfig) (ids : List ObjectId) (status : OwnerStatus)
      (ownerId : ObjectId) (now : Int)
  | bulkSetExpiry (edge : EdgeConfig) (ids : List ObjectId) (expireAfter : Option Int)
      (ownerId : ObjectId) (now : Int)

namespace OwnerCall

def Vars : OwnerCall → Type
  | .update .. | .delete .. => OwnerVars
  | .bulkDelete .. | .bulkSetStatus .. | .bulkSetExpiry .. => BulkVars

/-- The calls of the method, from its initial variables. -/
def process : (op : OwnerCall) → Process op.Vars Stores
  | .update env edge urlId request ownerId clientIp now =>
    (⟨{}, UrlService.updateCalls env edge urlId request ownerId clientIp now⟩ :
      Process OwnerVars Stores)
  | .delete edge urlId ownerId =>
    (⟨{}, UrlService.deleteCalls edge urlId ownerId⟩ : Process OwnerVars Stores)
  | .bulkDelete edge ids ownerId now =>
    (⟨{}, BulkUrlService.bulkDeleteCalls edge ids ownerId now⟩ : Process BulkVars Stores)
  | .bulkSetStatus edge ids status ownerId now =>
    (⟨{}, BulkUrlService.bulkSetStatusCalls edge ids status ownerId now⟩ :
      Process BulkVars Stores)
  | .bulkSetExpiry edge ids expireAfter ownerId now =>
    (⟨{}, BulkUrlService.bulkSetExpiryCalls edge ids expireAfter ownerId now⟩ :
      Process BulkVars Stores)

end OwnerCall

/-- A host block, or a block of single links. -/
inductive Block where
  | onHost (host reason : String) (now : Int)
  | onMatching (host : String) (matcher : String → Bool) (reason : String) (now : Int)
  | onAliases (pairs : List (String × String)) (reason : String) (now : Int)

namespace Block

def calls (cfg : EnforcerConfig) : Block → List SafetyEnforcer.Call
  | .onHost host reason now => SafetyEnforcer.blockHostCalls cfg host reason now
  | .onMatching host matcher reason now =>
    SafetyEnforcer.blockMatchingCalls cfg host matcher reason now
  | .onAliases pairs reason now => SafetyEnforcer.blockAliasesCalls cfg pairs reason now

/-- How many listings come before the write to the v2 links. -/
def reads : Block → Nat
  | .onHost .. => 4
  | .onMatching .. => 4
  | .onAliases .. => 1

/-- The write to the v2 links. -/
def flip : Block → SafetyEnforcer.Call
  | .onHost host reason now => SafetyEnforcer.flipByDestHost host reason now
  | .onMatching _ matcher reason now => fun v s =>
    SafetyEnforcer.flipByAliases (SafetyEnforcer.hits matcher v) reason now v s
  | .onAliases pairs reason now => SafetyEnforcer.flipByAliases pairs reason now

/-- The write matches the link. -/
def Matches (v : EnforcerVars) (row : UrlRow) : Block → Prop
  | .onHost host _ _ => row.status = .active ∧ host ∈ row.hosts
  | .onMatching _ matcher _ _ =>
    row.status = .active ∧ (row.linkAlias, row.domain) ∈ SafetyEnforcer.hits matcher v
  | .onAliases pairs _ _ => row.status = .active ∧ (row.linkAlias, row.domain) ∈ pairs

/-- What the write does to one link. -/
def flipRow (v : EnforcerVars) : Block → UrlRow → UrlRow
  | .onHost host reason now => afterBlock host reason now
  | .onMatching _ matcher reason now => afterAliases (SafetyEnforcer.hits matcher v) reason now
  | .onAliases pairs reason now => afterAliases pairs reason now

end Block

/-- The variables of the two processes. -/
def RaceVars (op : OwnerCall) : Actor → Type
  | .owner => op.Vars
  | .safety => EnforcerVars

/-- The owner's call and the block, both about to start. -/
def race (cfg : EnforcerConfig) (op : OwnerCall) (block : Block) (s : Stores) :
    System (RaceVars op) Stores where
  procs
    | .owner => op.process
    | .safety => (⟨{}, block.calls cfg⟩ : Process EnforcerVars Stores)
  shared := s

/-! ## The block -/

namespace Block

variable {block : Block} {v : EnforcerVars} {row : UrlRow} {s : Stores}

theorem frames_reads (cfg : EnforcerConfig) :
    Frames id ((block.calls cfg).take block.reads) := by
  intro action hmem
  cases block with
  | onHost host reason now =>
    simp only [calls, reads, SafetyEnforcer.blockHostCalls, List.take_succ_cons, List.take_zero,
      List.mem_cons, List.not_mem_nil, or_false] at hmem
    rcases hmem with rfl | rfl | rfl | rfl <;> exact fun _ _ => rfl
  | onMatching host matcher reason now =>
    simp only [calls, reads, SafetyEnforcer.blockMatchingCalls, List.take_succ_cons,
      List.take_zero, List.mem_cons, List.not_mem_nil, or_false] at hmem
    rcases hmem with rfl | rfl | rfl | rfl <;> exact fun _ _ => rfl
  | onAliases pairs reason now =>
    simp only [calls, reads, SafetyEnforcer.blockAliasesCalls, List.take_succ_cons,
      List.take_zero, List.mem_cons, List.not_mem_nil, or_false] at hmem
    rcases hmem with rfl
    exact fun _ _ => rfl

/-- Once its write is done, a block does not touch the v2 links again. -/
theorem drop_reads (cfg : EnforcerConfig) : ∃ rest,
    (block.calls cfg).drop block.reads = block.flip :: rest ∧ Frames Stores.urls rest := by
  cases block with
  | onHost host reason now =>
    refine ⟨_, rfl, fun action hmem => ?_⟩
    simp only [List.mem_cons, List.not_mem_nil, or_false] at hmem
    rcases hmem with rfl | rfl | rfl | rfl <;> exact fun _ _ => rfl
  | onMatching host matcher reason now =>
    refine ⟨_, rfl, fun action hmem => ?_⟩
    simp only [List.mem_cons, List.not_mem_nil, or_false] at hmem
    rcases hmem with rfl | rfl | rfl | rfl <;> exact fun _ _ => rfl
  | onAliases pairs reason now =>
    refine ⟨_, rfl, fun action hmem => ?_⟩
    simp only [List.mem_cons, List.not_mem_nil, or_false] at hmem
    rcases hmem with rfl | rfl <;> exact fun _ _ => rfl

theorem docs_flip : (block.flip v s).2.urls.docs = s.urls.docs.map (block.flipRow v) := by
  cases block with
  | onHost => exact docs_blockActiveByDestHost _ _ _ _
  | onMatching => exact docs_blockActiveByAliases _ _ _ _
  | onAliases => exact docs_blockActiveByAliases _ _ _ _

/-- A block leaves alone what says which link it is, and whose. -/
theorem flipRow_same (row : UrlRow) : (block.flipRow v row).id = row.id ∧
    (block.flipRow v row).linkAlias = row.linkAlias ∧
    (block.flipRow v row).domain = row.domain ∧
    (block.flipRow v row).ownerId = row.ownerId := by
  have haliases (pairs : List (String × String)) (reason : String) (now : Int) :
      (afterAliases pairs reason now row).id = row.id ∧
      (afterAliases pairs reason now row).linkAlias = row.linkAlias ∧
      (afterAliases pairs reason now row).domain = row.domain ∧
      (afterAliases pairs reason now row).ownerId = row.ownerId := by
    unfold afterAliases applyWhere
    split <;> exact ⟨rfl, rfl, rfl, rfl⟩
  cases block with
  | onHost host reason now =>
    rw [flipRow]
    by_cases hact : row.status = .active ∧ host ∈ row.hosts
    · rw [afterBlock_of_active hact.1 hact.2]
      exact ⟨rfl, rfl, rfl, rfl⟩
    · by_cases hcol : Collects row
      · rw [afterBlock_of_collects hcol]
        exact ⟨rfl, rfl, rfl, rfl⟩
      · rw [afterBlock_of_untouched hact hcol]
        exact ⟨rfl, rfl, rfl, rfl⟩
  | onMatching => exact haliases _ _ _
  | onAliases => exact haliases _ _ _

theorem Matches.active (h : block.Matches v row) : row.status = .active := by
  cases block <;> exact h.1

theorem Matches.status_flipRow (h : block.Matches v row) :
    (block.flipRow v row).status = .blocked := by
  cases block with
  | onHost =>
    rw [flipRow, afterBlock_of_active h.1 h.2]
    rfl
  | onMatching =>
    exact (held_afterAliases_of_active h.2 h.1).1
  | onAliases =>
    exact (held_afterAliases_of_active h.2 h.1).1

theorem lookup_flip (urlId : ObjectId) :
    (block.flip v s).2.urls.lookup urlId = (s.urls.lookup urlId).map (block.flipRow v) :=
  lookup_map_of_docs docs_flip (fun row => (flipRow_same row).1) urlId

/-- A matched link is BLOCKED once the write is done. -/
theorem Matches.blockedAt {urlId : ObjectId} (h : block.Matches v row)
    (hrow : s.urls.lookup urlId = some row) : BlockedAt (block.flip v s).2.urls urlId :=
  ⟨block.flipRow v row, by rw [lookup_flip, hrow]; rfl, h.status_flipRow⟩

end Block

/-! ## The owner -/

/-- The link is there and belongs to the owner. -/
def Owned (urls : UrlStore) (urlId ownerId : ObjectId) : Prop :=
  ∃ row, urls.lookup urlId = some row ∧ row.ownerId = ownerId

/-- Called on the store, the method deletes or deactivates the link, which is ACTIVE: it is a
deletion or sets INACTIVE, and is not refused. -/
def OwnerCall.Takes (urls : UrlStore) (urlId : ObjectId) : OwnerCall → Prop
  | .update env _ target request ownerId clientIp now =>
    target = urlId ∧ request.status = some .inactive ∧
      ∃ row built, urls.lookup urlId = some row ∧ row.ownerId = ownerId ∧
        buildOps env now request clientIp (.fromMongo row) = .ok built ∧
        (UrlRepository.update urls urlId
          { built with updatedAt := some now : UrlOps }.toUpdate).isSome = true
  | .delete _ target ownerId => target = urlId ∧ Owned urls urlId ownerId
  | .bulkDelete _ ids ownerId _ => urlId ∈ ids ∧ Owned urls urlId ownerId
  | .bulkSetStatus _ ids status ownerId _ =>
    status = .inactive ∧ urlId ∈ ids ∧ Owned urls urlId ownerId
  | .bulkSetExpiry .. => False

theorem wantedStatus_of_active {request : UpdateUrlRequest} {existing : UrlV2Doc}
    (hact : existing.status = .active) : wantedStatus request existing =
      if request.status = some .inactive then some .inactive else none := by
  unfold wantedStatus
  rw [hact]
  cases request.status with
  | none => rfl
  | some status => cases status <;> rfl

namespace UrlService

variable {env : UpdateEnv} {edge : EdgeConfig} {target ownerId urlId : ObjectId}
  {request : UpdateUrlRequest} {clientIp : Option String} {now : Int} {s s₁ : Stores}
  {row : UrlRow} {v : OwnerVars}

theorem frames_updateTail : Frames Stores.urls [invalidateKeys, reconcileEdge edge now] := by
  intro action hmem v s
  simp only [List.mem_cons, List.not_mem_nil, or_false] at hmem
  rcases hmem with rfl | rfl
  · exact urls_invalidateKeys v s
  · exact urls_reconcileEdge edge now v s

theorem frames_deleteTail : Frames Stores.urls [invalidateKeys, dropEdge edge] := by
  intro action hmem v s
  simp only [List.mem_cons, List.not_mem_nil, or_false] at hmem
  rcases hmem with rfl | rfl
  · exact urls_invalidateKeys v s
  · exact urls_dropEdge edge v s

/-- A write that names another link, or no status, keeps a link BLOCKED. -/
theorem blockedAt_writeUpdate (h : BlockedAt s.urls urlId)
    (hpending : ∀ existing ops, v.pending = some (existing, ops) →
      target ≠ urlId ∨ ops.status = none) :
    BlockedAt (writeUpdate target v s).2.urls urlId := by
  unfold writeUpdate
  split
  · rename_i existing ops hread
    split
    · rename_i urls hwrite
      refine h.map (lookup_updateManyUnique hwrite urlId) fun row hid hblocked => ?_
      rcases hpending existing ops hread with hne | hnone
      · rw [applyWhere_of_not_matches _ (by simp [hid, Ne.symm hne])]
        exact hblocked
      · unfold applyWhere
        split
        · simp only [UrlOps.toUpdate, hnone, Option.getD_none]
          exact hblocked
        · exact hblocked
    · exact h
  · exact h

theorem blockedAt_writeDelete (h : BlockedAt s.urls urlId)
    (hpending : v.pending.isSome → target ≠ urlId) :
    BlockedAt (writeDelete target v s).2.urls urlId := by
  unfold writeDelete onPending
  split
  · rename_i existing ops hread
    have hne : target ≠ urlId := hpending (by rw [hread]; rfl)
    obtain ⟨row, hrow, hblocked⟩ := h
    have hid : row.id = urlId := (lookup_eq_some_iff.1 hrow).2
    refine ⟨row, ?_, hblocked⟩
    simp only [UrlRepository.delete, lookup_deleteMany, hrow]
    simp [hid, Ne.symm hne]
  · exact h

/-- A call that starts once the link is BLOCKED leaves it so. -/
theorem keeps_updateCalls : Keeps (fun s => BlockedAt s.urls urlId)
    (updateCalls env edge target request ownerId clientIp now) {} := by
  intro s hs
  refine ⟨by rw [readForUpdate_stores]; exact hs, ?_⟩
  refine keeps_cons_of_frames (P := (BlockedAt · urlId)) frames_updateTail fun s' hs' => ?_
  refine blockedAt_writeUpdate hs' fun existing ops hread => .inl ?_
  rintro rfl
  obtain ⟨row, hrow, -, -, hlive, -⟩ := readForUpdate_pending hread
  obtain ⟨row', hrow', hblocked⟩ := hs
  rw [hrow] at hrow'
  exact hlive (Option.some.inj hrow' ▸ hblocked)

theorem readForDelete_stores : (readForDelete target ownerId v s).2 = s := by
  unfold readForDelete
  split <;> rfl

theorem readForDelete_pending :
    (readForDelete target ownerId {} s).1.pending.isSome = true ↔
      ∃ row, s.urls.lookup target = some row ∧ row.ownerId = ownerId ∧
        row.status ≠ .blocked := by
  unfold readForDelete
  split
  · rename_i e hload
    constructor
    · intro h
      cases h
    · rintro ⟨row, hrow, howner, hlive⟩
      simp [loadOwned, UrlRepository.findById_eq, hrow, UrlV2Doc.fromMongo, howner, hlive]
        at hload
  · rename_i existing hload
    obtain ⟨row, hrow, -, howner, hlive⟩ := loadOwned_ok hload
    exact ⟨fun _ => ⟨row, hrow, howner, hlive⟩, fun _ => rfl⟩

theorem keeps_deleteCalls : Keeps (fun s => BlockedAt s.urls urlId)
    (deleteCalls edge target ownerId) {} := by
  intro s hs
  refine ⟨by rw [readForDelete_stores]; exact hs, ?_⟩
  refine keeps_cons_of_frames (P := (BlockedAt · urlId)) frames_deleteTail fun s' hs' => ?_
  refine blockedAt_writeDelete hs' fun hread => ?_
  rintro rfl
  obtain ⟨row, hrow, -, hlive⟩ := readForDelete_pending.1 hread
  obtain ⟨row', hrow', hblocked⟩ := hs
  rw [hrow] at hrow'
  exact hlive (Option.some.inj hrow' ▸ hblocked)

/-! ### The block falls between the read and the write -/

variable {block : Block} {bv : EnforcerVars}

theorem blockedAt_writeDelete_iff (hrow : s.urls.lookup urlId = some row)
    (hmatch : block.Matches bv row) (hs₁ : s₁.urls = (block.flip bv s).2.urls) :
    BlockedAt (writeDelete target (readForDelete target ownerId {} s).1 s₁).2.urls urlId ↔
      ¬(OwnerCall.delete edge target ownerId).Takes s.urls urlId := by
  have hblocked : BlockedAt s₁.urls urlId := hs₁ ▸ hmatch.blockedAt hrow
  by_cases htakes : (OwnerCall.delete edge target ownerId).Takes s.urls urlId
  · refine iff_of_false ?_ fun hnot => hnot htakes
    obtain ⟨rfl, row', hrow', howner⟩ := htakes
    rw [hrow] at hrow'
    cases hrow'
    have hlive : row.status ≠ .blocked := by simp [hmatch.active]
    have hread := readForDelete_pending.2 ⟨row, hrow, howner, hlive⟩
    obtain ⟨pending, hpending⟩ := Option.isSome_iff_exists.1 hread
    rintro ⟨row₁, hrow₁, -⟩
    simp only [writeDelete, onPending, hpending, UrlRepository.delete, lookup_deleteMany,
      Option.filter_eq_some_iff] at hrow₁
    have hid : row₁.id = target := (lookup_eq_some_iff.1 hrow₁.1).2
    simp [hid] at hrow₁
  · refine iff_of_true (blockedAt_writeDelete hblocked fun hread => ?_) htakes
    rintro rfl
    obtain ⟨row', hrow', howner, -⟩ := readForDelete_pending.1 hread
    exact htakes ⟨rfl, row', hrow', howner⟩

theorem readForUpdate_of_built {built : UrlOps} (hrow : s.urls.lookup target = some row)
    (howner : row.ownerId = ownerId) (hlive : row.status ≠ .blocked)
    (hbuilt : buildOps env now request clientIp (.fromMongo row) = .ok built)
    (hne : built ≠ {}) :
    (readForUpdate env target request ownerId clientIp now {} s).1.pending =
      some (.fromMongo row, { built with updatedAt := some now }) := by
  have hload : loadOwned (UrlRepository.findById s.urls target) ownerId
      "Cannot modify a blocked URL" = .ok (.fromMongo row) := by
    simp [loadOwned, UrlRepository.findById_eq, hrow, UrlV2Doc.fromMongo, howner, hlive]
  simp [readForUpdate, hload, hbuilt, hne, bind, Except.bind, toWrite]

/-- A block does not decide whether a write is refused. -/
theorem isSome_update_of_flip (ops : UrlOps) (hs₁ : s₁.urls = (block.flip bv s).2.urls) :
    (UrlRepository.update s₁.urls target ops.toUpdate).isSome =
      (UrlRepository.update s.urls target ops.toUpdate).isSome := by
  have hdocs : s₁.urls.docs = s.urls.docs.map (block.flipRow bv) := by
    rw [hs₁, Block.docs_flip]
  refine isSome_updateManyUnique_of_docs hdocs ?_ ?_ ?_
  · intro row
    simp [(Block.flipRow_same row).1]
  · intro row
    obtain ⟨-, halias, hdomain, -⟩ := block.flipRow_same (v := bv) row
    simp only [Document.key, halias, hdomain]
  · intro row
    obtain ⟨-, halias, hdomain, -⟩ := block.flipRow_same (v := bv) row
    simp only [Document.key, UrlOps.toUpdate, halias, hdomain]

theorem blockedAt_writeUpdate_iff (hrow : s.urls.lookup urlId = some row)
    (hmatch : block.Matches bv row) (hs₁ : s₁.urls = (block.flip bv s).2.urls) :
    BlockedAt (writeUpdate target
        (readForUpdate env target request ownerId clientIp now {} s).1 s₁).2.urls urlId ↔
      ¬(OwnerCall.update env edge target request ownerId clientIp now).Takes s.urls urlId := by
  have hblocked : BlockedAt s₁.urls urlId := hs₁ ▸ hmatch.blockedAt hrow
  by_cases htakes :
      (OwnerCall.update env edge target request ownerId clientIp now).Takes s.urls urlId
  · refine iff_of_false ?_ fun hnot => hnot htakes
    obtain ⟨rfl, hrequest, row', built, hrow', howner, hbuilt, haccepted⟩ := htakes
    rw [hrow] at hrow'
    cases hrow'
    have hlive : row.status ≠ .blocked := by simp [hmatch.active]
    have hstatus : built.status = some .inactive := by
      rw [(edits_buildOps hbuilt).2 (by simp [UrlV2Doc.fromMongo, hmatch.active]),
        wantedStatus_of_active hmatch.active, if_pos hrequest]
    have hne : built ≠ {} := fun hempty => by simp [hempty] at hstatus
    have hread := readForUpdate_of_built hrow howner hlive hbuilt hne
    have hsome : (UrlRepository.update s₁.urls target
        { built with updatedAt := some now : UrlOps }.toUpdate).isSome = true :=
      (isSome_update_of_flip _ hs₁).trans haccepted
    obtain ⟨urls, hwrite⟩ := Option.isSome_iff_exists.1 hsome
    simp only [writeUpdate, hread, hwrite]
    rintro ⟨row₁, hrow₁, hstill⟩
    rw [lookup_updateManyUnique hwrite, Option.map_eq_some_iff] at hrow₁
    obtain ⟨row₀, hrow₀, rfl⟩ := hrow₁
    have hid : row₀.id = target := (lookup_eq_some_iff.1 hrow₀).2
    rw [applyWhere_of_matches _ (by simp [hid])] at hstill
    simp [UrlOps.toUpdate, hstatus] at hstill
  · refine iff_of_true ?_ htakes
    cases hread : (readForUpdate env target request ownerId clientIp now {} s).1.pending with
    | none =>
      refine blockedAt_writeUpdate hblocked fun existing ops hsome => ?_
      rw [hread] at hsome
      cases hsome
    | some pending =>
      obtain ⟨existing, ops⟩ := pending
      obtain ⟨row', hrow', rfl, howner, -, built, hbuilt, rfl⟩ := readForUpdate_pending hread
      by_cases hid : target = urlId
      · subst hid
        rw [hrow] at hrow'
        cases hrow'
        by_cases hrequest : request.status = some .inactive
        · -- The request was not refused before, so the unique index refuses its write.
          have hrefused : UrlRepository.update s₁.urls target
              { built with updatedAt := some now : UrlOps }.toUpdate = none := by
            rw [← Option.not_isSome_iff_eq_none, isSome_update_of_flip _ hs₁]
            exact fun haccepted =>
              htakes ⟨rfl, hrequest, row, built, hrow, howner, hbuilt, haccepted⟩
          simp only [writeUpdate, hread, hrefused]
          exact hblocked
        · have hnone : built.status = none := by
            rw [(edits_buildOps hbuilt).2 (by simp [UrlV2Doc.fromMongo, hmatch.active]),
              wantedStatus_of_active hmatch.active, if_neg hrequest]
          refine blockedAt_writeUpdate hblocked fun existing ops hsome => .inr ?_
          rw [hread] at hsome
          cases hsome
          exact hnone
      · exact blockedAt_writeUpdate hblocked fun _ _ _ => .inl hid

end UrlService

namespace BulkUrlService

variable {edge : EdgeConfig} {ids : List ObjectId} {ownerId urlId : ObjectId} {now : Int}
  {s s₁ : Stores} {row : UrlRow} {v : BulkVars} {block : Block} {bv : EnforcerVars}
  {setOps : UrlOps}

/-- A write over other links, or one that names no status, keeps a link BLOCKED. -/
theorem blockedAt_applyUpdate {docs : List UrlV2Doc} {batch : BulkBatch}
    (h : BlockedAt s.urls urlId)
    (hdocs : (∃ doc ∈ docs, doc.id = urlId) → setOps.status = none) :
    BlockedAt (applyUpdate edge ownerId setOps now docs batch s).2.2.urls urlId := by
  unfold applyUpdate
  split
  · rename_i urls hwrite
    refine h.map (lookup_updateManyUnique hwrite urlId) fun row hid hblocked => ?_
    unfold applyWhere
    split
    · rename_i hsel
      simp only [UrlRepository.matches_idsAndOwnerFilter, Bool.and_eq_true, decide_eq_true_eq,
        List.mem_map] at hsel
      obtain ⟨doc, hdoc, hdocid⟩ := hsel.1
      have hnone := hdocs ⟨doc, hdoc, hdocid.trans hid⟩
      simp only [UrlOps.toUpdate, hnone, Option.getD_none]
      exact hblocked
    · exact hblocked
  · exact h

theorem blockedAt_writeChanged (h : BlockedAt s.urls urlId)
    (hdocs : (∃ doc ∈ v.changed, doc.id = urlId) → setOps.status = none) :
    BlockedAt (writeChanged edge ownerId setOps now v s).2.urls urlId := by
  unfold writeChanged
  split
  · exact h
  · exact blockedAt_applyUpdate h hdocs

theorem blockedAt_writeReactivate (h : BlockedAt s.urls urlId)
    (hdocs : (∃ doc ∈ v.reactivate, doc.id = urlId) → setOps.status = none) :
    BlockedAt (writeReactivate edge ownerId setOps now v s).2.urls urlId := by
  unfold writeReactivate
  split
  · exact h
  · exact blockedAt_applyUpdate h hdocs

theorem blockedAt_writeDelete (h : BlockedAt s.urls urlId)
    (hdocs : ¬∃ doc ∈ v.changed, doc.id = urlId) :
    BlockedAt (writeDelete ownerId v s).2.urls urlId := by
  unfold writeDelete
  split
  · exact h
  · obtain ⟨row, hrow, hblocked⟩ := h
    have hid : row.id = urlId := (lookup_eq_some_iff.1 hrow).2
    refine ⟨row, ?_, hblocked⟩
    simp only [UrlRepository.deleteByIdsAndOwner, lookup_deleteMany, hrow]
    have hnot : row.id ∉ v.changed.map (·.id) := by
      rw [List.mem_map, hid]
      exact hdocs
    have hsel : (idsAndOwnerFilter (v.changed.map (·.id)) ownerId).Matches row = false := by
      rw [matches_idsAndOwnerFilter, decide_eq_false hnot, Bool.false_and]
    rw [Option.filter_some, hsel]
    rfl

theorem frames_bulkTail {last : Call} (h : ∀ v s, (last v s).2.urls = s.urls) :
    Frames Stores.urls [invalidateApplied, last] := by
  intro action hmem v s
  simp only [List.mem_cons, List.not_mem_nil, or_false] at hmem
  rcases hmem with rfl | rfl
  · rfl
  · exact h v s

theorem frames_purgeChanged :
    Frames Stores.urls [invalidateApplied, purgeChanged edge now] :=
  frames_bulkTail fun _ _ => rfl

theorem frames_statusEdge (status : OwnerStatus) :
    Frames Stores.urls [invalidateApplied, statusEdge edge status now] :=
  frames_bulkTail fun _ _ => by cases status <;> rfl

theorem frames_expiryEdge (expireAfter : Option Int) :
    Frames Stores.urls [invalidateApplied, expiryEdge edge expireAfter now] :=
  frames_bulkTail fun _ _ => rfl

/-- The documents a bulk method still has to write are of links it found not BLOCKED. -/
theorem not_mem_of_blockedAt {docs : List UrlV2Doc} (hlive : AllLive s.urls docs)
    (h : BlockedAt s.urls urlId) : ¬∃ doc ∈ docs, doc.id = urlId := by
  rintro ⟨doc, hdoc, rfl⟩
  obtain ⟨row, hrow, hblocked⟩ := h
  exact hlive doc hdoc row hrow hblocked

theorem keeps_bulkDeleteCalls : Keeps (fun s => BlockedAt s.urls urlId)
    (bulkDeleteCalls edge ids ownerId now) {} := by
  intro s hs
  have hlive : AllLive s.urls (loadForDelete ids ownerId {} s).1.changed := allLive_pending
  refine ⟨hs, keeps_cons_of_frames (P := (BlockedAt · urlId)) frames_purgeChanged ?_⟩
  exact fun s' hs' => blockedAt_writeDelete hs' (not_mem_of_blockedAt hlive hs)

theorem allLive_loadForStatus (status : OwnerStatus) :
    AllLive s.urls (loadForStatus ids status ownerId {} s).1.changed :=
  allLive_pending.sublist fun _ hdoc => List.mem_of_mem_filter hdoc

theorem keeps_bulkSetStatusCalls (status : OwnerStatus) :
    Keeps (fun s => BlockedAt s.urls urlId)
      (bulkSetStatusCalls edge ids status ownerId now) {} := by
  intro s hs
  have hlive : AllLive s.urls (loadForStatus ids status ownerId {} s).1.changed :=
    allLive_loadForStatus status
  have hnot := not_mem_of_blockedAt hlive hs
  refine ⟨hs, keeps_cons_of_frames (P := (BlockedAt · urlId)) (frames_statusEdge status) ?_⟩
  exact fun s' hs' => blockedAt_writeChanged hs' fun hmem => absurd hmem hnot

/-- The writes of `bulk_set_expiry` keep a link BLOCKED that is not to be reactivated. -/
theorem keeps_expiryWrites (expireAfter : Option Int)
    (hnot : ¬∃ doc ∈ v.reactivate, doc.id = urlId) :
    Keeps (fun s => BlockedAt s.urls urlId)
      [writeChanged edge ownerId (plainOps expireAfter now) now,
        writeReactivate edge ownerId (reactOps expireAfter now) now, invalidateApplied,
        expiryEdge edge expireAfter now] v := by
  intro s hs
  refine ⟨blockedAt_writeChanged hs fun _ => rfl, ?_⟩
  refine keeps_cons_of_frames (P := (BlockedAt · urlId)) (frames_expiryEdge expireAfter) ?_
  intro s' hs'
  refine blockedAt_writeReactivate hs' fun hmem => absurd hmem ?_
  rw [reactivate_writeChanged]
  exact hnot

theorem keeps_bulkSetExpiryCalls (expireAfter : Option Int) :
    Keeps (fun s => BlockedAt s.urls urlId)
      (bulkSetExpiryCalls edge ids expireAfter ownerId now) {} := by
  intro s hs
  refine ⟨by rw [loadForExpiry_stores]; exact hs, ?_⟩
  exact keeps_expiryWrites expireAfter
    (not_mem_of_blockedAt (allLive_loadForExpiry expireAfter).2 hs)

/-! ### The block falls between the read and the write -/

/-- The documents a bulk method finds, by the id of their link. -/
theorem mem_pending_iff {message : String} (hrow : s.urls.lookup urlId = some row)
    (hlive : row.status ≠ .blocked) {doc : UrlV2Doc} :
    doc ∈ (load s.urls ids ownerId message).pending ∧ doc.id = urlId ↔
      doc = .fromMongo row ∧ urlId ∈ ids ∧ row.ownerId = ownerId := by
  have hid : row.id = urlId := (lookup_eq_some_iff.1 hrow).2
  rw [mem_pending_load]
  constructor
  · rintro ⟨⟨found, hfound, rfl, hmem, howner, -⟩, hdoc⟩
    have hsame : found.id = urlId := hdoc
    rw [hsame, hrow] at hfound
    cases hfound
    exact ⟨rfl, hsame ▸ hmem, howner⟩
  · rintro ⟨rfl, hmem, howner⟩
    exact ⟨⟨row, hid ▸ hrow, rfl, hid ▸ hmem, howner, hlive⟩, hid⟩

theorem exists_mem_loadForDelete (hrow : s.urls.lookup urlId = some row)
    (hlive : row.status ≠ .blocked) :
    (∃ doc ∈ (loadForDelete ids ownerId {} s).1.changed, doc.id = urlId) ↔
      urlId ∈ ids ∧ row.ownerId = ownerId := by
  simp only [loadForDelete, mem_pending_iff hrow hlive, exists_eq_left]

theorem exists_mem_loadForStatus {status : OwnerStatus} (hrow : s.urls.lookup urlId = some row)
    (hact : row.status = .active) :
    (∃ doc ∈ (loadForStatus ids status ownerId {} s).1.changed, doc.id = urlId) ↔
      status = .inactive ∧ urlId ∈ ids ∧ row.ownerId = ownerId := by
  have hlive : row.status ≠ .blocked := by simp [hact]
  have hstatus : row.status ≠ status.toUrlStatus ↔ status = .inactive := by
    rw [hact]
    cases status <;> simp [OwnerStatus.toUrlStatus]
  simp only [loadForStatus, List.mem_filter, decide_eq_true_eq]
  constructor
  · rintro ⟨doc, ⟨hpending, hne⟩, hid⟩
    obtain ⟨rfl, hmem, howner⟩ := (mem_pending_iff hrow hlive).1 ⟨hpending, hid⟩
    exact ⟨hstatus.1 hne, hmem, howner⟩
  · rintro ⟨hinactive, hmem, howner⟩
    obtain ⟨hpending, hid⟩ := (mem_pending_iff hrow hlive).2 ⟨rfl, hmem, howner⟩
    exact ⟨.fromMongo row, ⟨hpending, hstatus.2 hinactive⟩, hid⟩

theorem not_mem_reactivate (expireAfter : Option Int) (hrow : s.urls.lookup urlId = some row)
    (hact : row.status = .active) :
    ¬∃ doc ∈ (loadForExpiry ids expireAfter ownerId now {} s).1.reactivate, doc.id = urlId := by
  have hlive : row.status ≠ .blocked := by simp [hact]
  unfold loadForExpiry
  split
  · rintro ⟨doc, hdoc, -⟩
    exact absurd hdoc List.not_mem_nil
  · rintro ⟨doc, hdoc, hid⟩
    simp only [List.mem_filter, decide_eq_true_eq] at hdoc
    obtain ⟨rfl, -⟩ := (mem_pending_iff hrow hlive).1 ⟨hdoc.1.1, hid⟩
    have hexpired : row.status = .expired := hdoc.2
    rw [hact] at hexpired
    cases hexpired

/-- The link that a write selects is not BLOCKED afterwards. -/
theorem not_blockedAt_writeChanged {status : OwnerStatus} (h : status = .inactive)
    (hrow : s.urls.lookup urlId = some row) (howner : row.ownerId = ownerId)
    (hmem : ∃ doc ∈ v.changed, doc.id = urlId) :
    ¬BlockedAt (writeChanged edge ownerId (statusOps status now) now v s).2.urls urlId := by
  subst h
  have hid : row.id = urlId := (lookup_eq_some_iff.1 hrow).2
  obtain ⟨doc, hdoc, hdocid⟩ := hmem
  let u : KeyedUpdate UrlRow :=
    ⟨(statusOps .inactive now).toUpdate, fun _ => rfl⟩
  have hwrite : updateByIdsAndOwner s.urls (v.changed.map (·.id)) ownerId
      (statusOps .inactive now).toUpdate = some (s.urls.updateMany _ u) :=
    updateManyUnique_of_key s.urls _ u
  rw [writeChanged, if_neg (List.ne_nil_of_mem hdoc)]
  simp only [applyUpdate, hwrite]
  rintro ⟨row', hrow', hblocked⟩
  have hsel : (idsAndOwnerFilter (v.changed.map (·.id)) ownerId).Matches row = true := by
    rw [matches_idsAndOwnerFilter, Bool.and_eq_true, decide_eq_true_eq, decide_eq_true_eq]
    exact ⟨List.mem_map.2 ⟨doc, hdoc, hdocid.trans hid.symm⟩, howner⟩
  rw [lookup_updateMany, hrow, Option.map_some, applyWhere_of_matches _ hsel] at hrow'
  cases hrow'
  cases hblocked

theorem not_blockedAt_writeDelete (hrow : s.urls.lookup urlId = some row)
    (howner : row.ownerId = ownerId) (hmem : ∃ doc ∈ v.changed, doc.id = urlId) :
    ¬BlockedAt (writeDelete ownerId v s).2.urls urlId := by
  have hid : row.id = urlId := (lookup_eq_some_iff.1 hrow).2
  obtain ⟨doc, hdoc, hdocid⟩ := hmem
  rw [writeDelete, if_neg (List.ne_nil_of_mem hdoc)]
  rintro ⟨row', hrow', -⟩
  have hsel : (idsAndOwnerFilter (v.changed.map (·.id)) ownerId).Matches row = true := by
    rw [matches_idsAndOwnerFilter, Bool.and_eq_true, decide_eq_true_eq, decide_eq_true_eq]
    exact ⟨List.mem_map.2 ⟨doc, hdoc, hdocid.trans hid.symm⟩, howner⟩
  simp only [deleteByIdsAndOwner, lookup_deleteMany, hrow, Option.filter_some, hsel] at hrow'
  cases hrow'

theorem blockedAt_writeDelete_iff (hrow : s.urls.lookup urlId = some row)
    (hmatch : block.Matches bv row) (hs₁ : s₁.urls = (block.flip bv s).2.urls) :
    BlockedAt (writeDelete ownerId (loadForDelete ids ownerId {} s).1 s₁).2.urls urlId ↔
      ¬(OwnerCall.bulkDelete edge ids ownerId now).Takes s.urls urlId := by
  have hlive : row.status ≠ .blocked := by simp [hmatch.active]
  have hfound : (∃ doc ∈ (loadForDelete ids ownerId {} s).1.changed, doc.id = urlId) ↔
      urlId ∈ ids ∧ row.ownerId = ownerId := exists_mem_loadForDelete hrow hlive
  have hrow₁ : s₁.urls.lookup urlId = some (block.flipRow bv row) := by
    rw [hs₁, Block.lookup_flip, hrow]
    rfl
  by_cases hmem : urlId ∈ ids ∧ row.ownerId = ownerId
  · refine iff_of_false ?_ fun hnot => hnot ⟨hmem.1, row, hrow, hmem.2⟩
    exact not_blockedAt_writeDelete hrow₁ ((Block.flipRow_same row).2.2.2.trans hmem.2)
      (hfound.2 hmem)
  · refine iff_of_true ?_ ?_
    · exact blockedAt_writeDelete (hs₁ ▸ hmatch.blockedAt hrow) fun h => hmem (hfound.1 h)
    · rintro ⟨hid, row', hrow', howner⟩
      rw [hrow] at hrow'
      cases hrow'
      exact hmem ⟨hid, howner⟩

theorem blockedAt_writeChanged_iff {status : OwnerStatus}
    (hrow : s.urls.lookup urlId = some row) (hmatch : block.Matches bv row)
    (hs₁ : s₁.urls = (block.flip bv s).2.urls) :
    BlockedAt (writeChanged edge ownerId (statusOps status now) now
        (loadForStatus ids status ownerId {} s).1 s₁).2.urls urlId ↔
      ¬(OwnerCall.bulkSetStatus edge ids status ownerId now).Takes s.urls urlId := by
  have hfound : (∃ doc ∈ (loadForStatus ids status ownerId {} s).1.changed, doc.id = urlId) ↔
      status = .inactive ∧ urlId ∈ ids ∧ row.ownerId = ownerId :=
    exists_mem_loadForStatus hrow hmatch.active
  have hrow₁ : s₁.urls.lookup urlId = some (block.flipRow bv row) := by
    rw [hs₁, Block.lookup_flip, hrow]
    rfl
  by_cases hmem : status = .inactive ∧ urlId ∈ ids ∧ row.ownerId = ownerId
  · refine iff_of_false ?_ fun hnot => hnot ⟨hmem.1, hmem.2.1, row, hrow, hmem.2.2⟩
    exact not_blockedAt_writeChanged hmem.1 hrow₁
      ((Block.flipRow_same row).2.2.2.trans hmem.2.2) (hfound.2 hmem)
  · refine iff_of_true ?_ ?_
    · exact blockedAt_writeChanged (hs₁ ▸ hmatch.blockedAt hrow) fun h =>
        absurd (hfound.1 h) hmem
    · rintro ⟨hinactive, hid, row', hrow', howner⟩
      rw [hrow] at hrow'
      cases hrow'
      exact hmem ⟨hinactive, hid, howner⟩

/-- The plain write of `bulk_set_expiry` leaves the status of a link alone. -/
theorem lookup_writeChanged_plain {expireAfter : Option Int}
    (hrow : (writeChanged edge ownerId (plainOps expireAfter now) now v s).2.urls.lookup urlId =
      some row) : ∃ row₀, s.urls.lookup urlId = some row₀ ∧ row₀.status = row.status := by
  unfold writeChanged at hrow
  split at hrow
  · exact ⟨row, hrow, rfl⟩
  · unfold applyUpdate at hrow
    split at hrow
    · rename_i urls hwrite
      have hlook := lookup_updateManyUnique hwrite urlId
      rw [show urls.lookup urlId = some row from hrow] at hlook
      obtain ⟨row₀, hrow₀, hrow'⟩ := Option.map_eq_some_iff.1 hlook.symm
      refine ⟨row₀, hrow₀, ?_⟩
      rw [← hrow']
      unfold applyWhere
      split <;> rfl
    · exact ⟨row, hrow, rfl⟩

/-- A link that is ACTIVE after the plain write of `bulk_set_expiry` is not reactivated. -/
theorem keeps_lastWrite (expireAfter : Option Int)
    (hrow : (writeChanged edge ownerId (plainOps expireAfter now) now
      (loadForExpiry ids expireAfter ownerId now {} s).1
      (loadForExpiry ids expireAfter ownerId now {} s).2).2.urls.lookup urlId = some row)
    (hact : row.status = .active) :
    Keeps (fun s => BlockedAt s.urls urlId)
      [writeReactivate edge ownerId (reactOps expireAfter now) now, invalidateApplied,
        expiryEdge edge expireAfter now]
      (writeChanged edge ownerId (plainOps expireAfter now) now
        (loadForExpiry ids expireAfter ownerId now {} s).1
        (loadForExpiry ids expireAfter ownerId now {} s).2).1 := by
  obtain ⟨row₀, hrow₀, hstatus⟩ := lookup_writeChanged_plain hrow
  rw [loadForExpiry_stores] at hrow₀
  refine keeps_cons_of_frames (P := (BlockedAt · urlId)) (frames_expiryEdge expireAfter) ?_
  intro s' hs'
  refine blockedAt_writeReactivate hs' fun hmem => absurd hmem ?_
  rw [reactivate_writeChanged]
  exact not_mem_reactivate expireAfter hrow₀ (hstatus.trans hact)

end BulkUrlService

/-! ## The race -/

namespace OwnerCall

variable (op : OwnerCall) {s : Stores} {row : UrlRow} {block : Block} {bv : EnforcerVars}
  {urlId : ObjectId}

/-- Every method starts with a read. -/
theorem readsFirst (s : Stores) :
    (runActions (op.process.todo.take 1) op.process.vars s).2 = s := by
  cases op with
  | update => exact UrlService.readForUpdate_stores _
  | delete => exact UrlService.readForDelete_stores
  | bulkDelete => rfl
  | bulkSetStatus => rfl
  | bulkSetExpiry => exact BulkUrlService.loadForExpiry_stores _ _

/-- A method that starts once the link is BLOCKED leaves it so. -/
theorem keeps_process :
    Keeps (fun s => BlockedAt s.urls urlId) op.process.todo op.process.vars := by
  cases op with
  | update => exact UrlService.keeps_updateCalls
  | delete => exact UrlService.keeps_deleteCalls
  | bulkDelete => exact BulkUrlService.keeps_bulkDeleteCalls
  | bulkSetStatus _ _ status => exact BulkUrlService.keeps_bulkSetStatusCalls status
  | bulkSetExpiry _ _ expireAfter => exact BulkUrlService.keeps_bulkSetExpiryCalls expireAfter

/-- A method that has read the ACTIVE link, and nothing else, when the block matches it. -/
theorem settles_after_read (hrow : s.urls.lookup urlId = some row)
    (hmatch : block.Matches bv row) :
    Process.Settles Stores.urls (block.flip bv s).2.urls
      (fun urls => BlockedAt urls urlId ↔ ¬op.Takes s.urls urlId)
      ⟨(runActions (op.process.todo.take 1) op.process.vars s).1, op.process.todo.drop 1⟩ := by
  cases op with
  | update =>
    exact .inl ⟨_, _, rfl, UrlService.frames_updateTail, fun s₁ hs₁ =>
      UrlService.blockedAt_writeUpdate_iff hrow hmatch hs₁⟩
  | delete =>
    exact .inl ⟨_, _, rfl, UrlService.frames_deleteTail, fun s₁ hs₁ =>
      UrlService.blockedAt_writeDelete_iff hrow hmatch hs₁⟩
  | bulkDelete =>
    exact .inl ⟨_, _, rfl, BulkUrlService.frames_purgeChanged, fun s₁ hs₁ =>
      BulkUrlService.blockedAt_writeDelete_iff hrow hmatch hs₁⟩
  | bulkSetStatus _ _ status =>
    exact .inl ⟨_, _, rfl, BulkUrlService.frames_statusEdge status, fun s₁ hs₁ =>
      BulkUrlService.blockedAt_writeChanged_iff hrow hmatch hs₁⟩
  | bulkSetExpiry edge ids expireAfter ownerId now =>
    have hsame : (fun urls => BlockedAt urls urlId ↔
        ¬(OwnerCall.bulkSetExpiry edge ids expireAfter ownerId now).Takes s.urls urlId) =
        (BlockedAt · urlId) := by
      funext urls
      simp [Takes]
    rw [hsame]
    exact .inr ⟨hmatch.blockedAt hrow, BulkUrlService.keeps_expiryWrites expireAfter
      (BulkUrlService.not_mem_reactivate expireAfter hrow hmatch.active)⟩

/-- A method that has read and written when the block matches the link has at most the other
write of an expiry change before it. -/
theorem keeps_after_write {k : Nat} (hk : 2 ≤ k)
    (hrow : (runActions (op.process.todo.take k) op.process.vars s).2.urls.lookup urlId =
      some row) (hact : row.status = .active) :
    Keeps (fun s => BlockedAt s.urls urlId) (op.process.todo.drop k)
      (runActions (op.process.todo.take k) op.process.vars s).1 := by
  obtain ⟨j, rfl⟩ := Nat.exists_eq_add_of_le' hk
  cases op with
  | update => exact (UrlService.frames_updateTail.drop j).keeps (P := (BlockedAt · urlId)) _
  | delete => exact (UrlService.frames_deleteTail.drop j).keeps (P := (BlockedAt · urlId)) _
  | bulkDelete =>
    exact (BulkUrlService.frames_purgeChanged.drop j).keeps (P := (BlockedAt · urlId)) _
  | bulkSetStatus _ _ status =>
    exact ((BulkUrlService.frames_statusEdge status).drop j).keeps (P := (BlockedAt · urlId)) _
  | bulkSetExpiry edge ids expireAfter ownerId now =>
    cases j with
    | succ j =>
      exact ((BulkUrlService.frames_expiryEdge expireAfter).drop j).keeps
        (P := (BlockedAt · urlId)) _
    | zero =>
      exact BulkUrlService.keeps_lastWrite expireAfter hrow hact

end OwnerCall

/-- An owner's method and a block run interleaved. The block's write comes after `before`, and
matches the link. When both have finished the link is there and BLOCKED, unless the write came
between the owner's read and the owner's write, and that write deletes or deactivates it. -/
theorem blocked_once_finished_iff (cfg : EnforcerConfig) (op : OwnerCall) (block : Block)
    (s : Stores) (urlId : ObjectId) (before after : List Actor) (row : UrlRow)
    (hreads : before.count .safety = block.reads)
    (hrow : ((race cfg op block s).run before).shared.urls.lookup urlId = some row)
    (hmatch : block.Matches (((race cfg op block s).run before).procs .safety).vars row)
    (hfinished : ((race cfg op block s).run (before ++ .safety :: after)).Finished) :
    BlockedAt ((race cfg op block s).run (before ++ .safety :: after)).shared.urls urlId ↔
      ¬(before.count .owner = 1 ∧ op.Takes s.urls urlId) := by
  let mid := (race cfg op block s).run before
  let bv : EnforcerVars := (mid.procs .safety).vars
  have hreadonly : ∀ j, j ≠ Actor.owner →
      Frames id (((race cfg op block s).procs j).todo.take (before.count j)) := by
    intro j hj
    cases j with
    | owner => exact absurd rfl hj
    | safety =>
      rw [hreads]
      exact block.frames_reads cfg
  -- Up to the block's write the owner runs as if alone.
  have halone := System.run_of_reads before hreadonly
  have hvars : (mid.procs .owner).vars =
      (runActions (op.process.todo.take (before.count .owner)) op.process.vars s).1 :=
    congrArg Prod.fst halone
  have hshared : mid.shared =
      (runActions (op.process.todo.take (before.count .owner)) op.process.vars s).2 :=
    congrArg Prod.snd halone
  have htodo : (mid.procs .owner).todo = op.process.todo.drop (before.count .owner) :=
    System.todo_run before _ .owner
  -- The block's write, and nothing that touches the v2 links after it.
  obtain ⟨rest, hdrop, hrest⟩ := block.drop_reads cfg
  have hflip : (mid.procs .safety).todo = block.flip :: rest := by
    rw [System.todo_run, hreads]
    exact hdrop
  have hothers : ∀ j, j ≠ Actor.owner → Frames Stores.urls ((mid.step .safety).procs j).todo := by
    intro j hj
    cases j with
    | owner => exact absurd rfl hj
    | safety =>
      rw [System.procs_step_same, Process.step, hflip]
      exact hrest
  have howner : (mid.step .safety).procs .owner = mid.procs .owner :=
    System.procs_step_of_ne mid (by decide)
  have hurls : (mid.step .safety).shared.urls = (block.flip bv mid.shared).2.urls := by
    rw [System.step, Process.step, hflip]
  rw [System.run_append, System.run_cons] at hfinished ⊢
  have hblocked : BlockedAt (block.flip bv mid.shared).2.urls urlId := hmatch.blockedAt hrow
  have settle {P : UrlStore → Prop}
      (h : Process.Settles Stores.urls (block.flip bv mid.shared).2.urls P
        ⟨(mid.procs .owner).vars, (mid.procs .owner).todo⟩) :
      P ((mid.step .safety).run after).shared.urls := by
    refine System.run_settles (f := Stores.urls) (i := .owner) after hothers ?_ hfinished
    rw [howner, hurls]
    exact h
  rw [hvars, htodo] at settle
  rcases Nat.lt_trichotomy (before.count .owner) 1 with hnone | hone | hmore
  · have hzero : before.count .owner = 0 := by omega
    rw [hzero] at settle
    exact iff_of_true (settle (P := (BlockedAt · urlId)) (.inr ⟨hblocked, op.keeps_process⟩)) fun h => by omega
  · rw [hone] at settle hshared
    have hread : (runActions (op.process.todo.take 1) op.process.vars s).2 = s :=
      op.readsFirst s
    have hmid : mid.shared = s := hshared.trans hread
    rw [hmid] at settle
    rw [show ((race cfg op block s).run before).shared = s from hmid] at hrow
    rw [hone, settle (op.settles_after_read hrow hmatch)]
    simp
  · refine iff_of_true (settle (P := (BlockedAt · urlId)) (.inr ⟨hblocked, ?_⟩)) fun h => by omega
    rw [hshared] at hrow
    exact op.keeps_after_write hmore hrow hmatch.active

/-- A link with an owner. -/
def ownedLink : UrlRow := { linkOn 1 "aaa" "a.example" with ownerId := 7 }

/-- The stores with the one link. -/
def ownedStores : Stores where
  urls := { docs := [ownedLink], nodup_id := by decide, nodup_key := by decide }
  legacy := .empty
  emoji := .empty

/-- The owner deletes the link while its host is blocked. -/
def deletionRace : System (RaceVars (.delete plainEdge 1 7)) Stores :=
  race SafetyEnforcer.plainConfig (.delete plainEdge 1 7) (.onHost "a.example" "phishing" 0)
    ownedStores

/-- The owner reads, the block runs up to its write. -/
def readThenBlock : List Actor := [.owner, .safety, .safety, .safety, .safety]

/-- What is left of the block, then what is left of the deletion. -/
def finishBoth : List Actor := [.safety, .safety, .safety, .safety, .owner, .owner, .owner]

theorem finished_deletionRace :
    (deletionRace.run (readThenBlock ++ .safety :: finishBoth)).Finished := by
  intro actor
  cases actor <;> rfl

theorem blocked_once_finished_iff_deletionRace :
    BlockedAt (deletionRace.run (readThenBlock ++ .safety :: finishBoth)).shared.urls 1 ↔
      ¬(readThenBlock.count .owner = 1 ∧
        (OwnerCall.delete plainEdge 1 7).Takes ownedStores.urls 1) :=
  blocked_once_finished_iff SafetyEnforcer.plainConfig (.delete plainEdge 1 7)
    (.onHost "a.example" "phishing" 0) ownedStores 1 readThenBlock finishBoth ownedLink
    (by decide) (by decide) ⟨rfl, by decide⟩ finished_deletionRace

/-- The block's write finds the link and blocks it, and the deletion takes it away. -/
theorem block_lost_to_deletion :
    BlockedAt (deletionRace.run (readThenBlock ++ [.safety])).shared.urls 1 ∧
      (deletionRace.run (readThenBlock ++ .safety :: finishBoth)).Finished ∧
      ¬BlockedAt (deletionRace.run (readThenBlock ++ .safety :: finishBoth)).shared.urls 1 :=
  ⟨by decide, finished_deletionRace, by decide⟩

end Spoo
