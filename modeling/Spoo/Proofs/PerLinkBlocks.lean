import Spoo.Proofs.HostBlocks
import Spoo.Services.Safety.Enforcer

/-!
# Per-link blocks

`block_matching` and `block_aliases` block single links. Here is what they do to a link of
each schema, which links `block_matching` reaches, and when a per-link block outlives the
unblocking of hosts.
-/

namespace Spoo

open Mongo Mongo.Collection

/-! ## One link under a per-link block -/

namespace UrlRepository

/-- The v2 link is one of those named and can be blocked. -/
def aliasesSelect (pairs : List (String × String)) (row : UrlRow) : Bool :=
  decide ((row.linkAlias, row.domain) ∈ pairs) && decide (row.status = .active)

/-- What `block_active_by_aliases` does to one link. -/
def afterAliases (pairs : List (String × String)) (reason : String) (now : Int) :
    UrlRow → UrlRow :=
  applyWhere (aliasesSelect pairs) (blockWith reason .null now).toUpdate

/-- A link a first batch has blocked is no longer selected by the next. -/
theorem afterAliases_append (ps qs : List (String × String)) (reason : String) (now : Int)
    (row : UrlRow) :
    afterAliases qs reason now (afterAliases ps reason now row) =
      afterAliases (ps ++ qs) reason now row := by
  unfold afterAliases
  by_cases hp : aliasesSelect ps row = true
  · have hboth : aliasesSelect (ps ++ qs) row = true := by
      simp only [aliasesSelect, Bool.and_eq_true, decide_eq_true_eq] at hp ⊢
      exact ⟨List.mem_append_left _ hp.1, hp.2⟩
    rw [applyWhere_of_matches _ hp, applyWhere_of_matches _ hboth]
    exact applyWhere_of_not_matches _ (by simp [aliasesSelect, blockWith])
  · rw [Bool.not_eq_true] at hp
    have hsame : aliasesSelect (ps ++ qs) row = aliasesSelect qs row := by
      simp only [aliasesSelect, Bool.and_eq_false_iff, decide_eq_false_iff_not] at hp ⊢
      rcases hp with hp | hp <;> simp [hp]
    rw [applyWhere_of_not_matches _ hp]
    simp only [applyWhere, hsame]

private theorem docs_foldl_blockChunk (reason : String) (now : Int) :
    ∀ (chunks : List (List (String × String))) (acc : UrlStore × Nat),
      ((chunks.map (List.map aliasClause)).foldl (blockChunk reason now) acc).1.docs =
        acc.1.docs.map (afterAliases chunks.flatten reason now)
  | [], acc => by
    have hid : afterAliases [] reason now = id :=
      funext fun row => applyWhere_of_not_matches _ (by simp [aliasesSelect])
    simp [hid]
  | chunk :: chunks, acc => by
    have hone : (blockChunk reason now acc (chunk.map aliasClause)).1.docs =
        acc.1.docs.map (afterAliases chunk reason now) := by
      simp only [blockChunk, updateMany, afterAliases]
      congr 2
      funext row
      exact matches_aliasesFilter chunk
    rw [List.map_cons, List.foldl_cons, docs_foldl_blockChunk reason now chunks, hone,
      List.map_map, List.flatten_cons]
    congr 1
    exact funext fun row => afterAliases_append chunk chunks.flatten reason now row

theorem docs_blockActiveByAliases (store : UrlStore) (pairs : List (String × String))
    (reason : String) (now : Int) :
    (blockActiveByAliases store pairs reason now).1.docs =
      store.docs.map (afterAliases pairs reason now) := by
  rw [blockActiveByAliases, aliasChunks, PyList.chunks_map, docs_foldl_blockChunk]
  have hsel : aliasesSelect (PyList.chunks 1000 pairs).flatten = aliasesSelect pairs :=
    funext fun row => by simp only [aliasesSelect, PyList.mem_flatten_chunks (by decide : 0 < 1000)]
  simp [afterAliases, hsel]

theorem lookup_blockActiveByAliases (store : UrlStore) (pairs : List (String × String))
    (reason : String) (now : Int) (urlId : ObjectId) :
    (blockActiveByAliases store pairs reason now).1.lookup urlId =
      (store.lookup urlId).map (afterAliases pairs reason now) :=
  lookup_map_of_docs (docs_blockActiveByAliases store pairs reason now)
    (id_applyWhere _ _) urlId

/-- Blocked for good: no host unblock releases the link. -/
def Held (row : UrlRow) : Prop := row.status = .blocked ∧ ¬Collects row

instance (row : UrlRow) : Decidable (Held row) := by unfold Held; infer_instance

theorem held_afterAliases {pairs : List (String × String)} {reason : String} {now : Int}
    {row : UrlRow} (h : Held row) : Held (afterAliases pairs reason now row) := by
  rw [afterAliases, applyWhere_of_not_matches _ (by simp [aliasesSelect, h.1])]
  exact h

/-- A per-link block that finds a named link ACTIVE holds it. -/
theorem held_afterAliases_of_active {pairs : List (String × String)} {reason : String}
    {now : Int} {row : UrlRow} (hmem : (row.linkAlias, row.domain) ∈ pairs)
    (hact : row.status = .active) : Held (afterAliases pairs reason now row) := by
  rw [afterAliases, applyWhere_of_matches _ (by simp [aliasesSelect, hmem, hact])]
  exact ⟨rfl, fun h => h.2.2 rfl⟩

theorem held_afterBlock {host reason : String} {now : Int} {row : UrlRow} (h : Held row) :
    Held (afterBlock host reason now row) := by
  rw [afterBlock_of_untouched (fun hact => by simp [h.1] at hact) h.2]
  exact h

theorem held_afterUnblock {host : String} {now : Int} {row : UrlRow} (h : Held row) :
    Held (afterUnblock host now row) := by
  have hpulled : Held (applyWhere (pullFilter host).Matches (pullHost host).toUpdate row) := by
    unfold applyWhere
    split
    · refine ⟨h.1, fun hcol => h.2 ⟨h.1, hcol.2.1, fun hnull => hcol.2.2 ?_⟩⟩
      simp [pullHost, hnull, DocField.pull]
    · exact h
  have hrel : (releaseFilter host).Matches
      (applyWhere (pullFilter host).Matches (pullHost host).toUpdate row) = false := by
    rw [Bool.eq_false_iff, ne_eq, matches_releaseFilter]
    rintro ⟨hcauses, hstat, hreason⟩
    refine hpulled.2 ⟨hstat, hreason, fun hnull => ?_⟩
    rcases hcauses with ⟨-, heq⟩ | ⟨heq, -⟩ <;> rw [hnull] at heq <;> cases heq
  rw [afterUnblock, applyWhere_of_not_matches _ hrel]
  exact hpulled

section

variable {store : UrlStore} {urlId : ObjectId} {reason : String} {now : Int}

/-- The link exists and is blocked for good. -/
def HoldsLink (store : UrlStore) (urlId : ObjectId) : Prop :=
  ∃ row ∈ store.lookup urlId, Held row

private theorem holdsLink_of_lookup {store' : UrlStore} {f : UrlRow → UrlRow}
    (hlook : store'.lookup urlId = (store.lookup urlId).map f)
    (hf : ∀ row, Held row → Held (f row)) (h : HoldsLink store urlId) :
    HoldsLink store' urlId := by
  obtain ⟨row, hrow, hheld⟩ := h
  exact ⟨f row, by rw [hlook, hrow]; rfl, hf row hheld⟩

theorem holdsLink_blockActiveByDestHost {host : String} (h : HoldsLink store urlId) :
    HoldsLink (blockActiveByDestHost store host reason now).1 urlId :=
  holdsLink_of_lookup (lookup_blockActiveByDestHost store host reason now urlId)
    (fun _ => held_afterBlock) h

theorem holdsLink_unblockByDestHost {host : String} (h : HoldsLink store urlId) :
    HoldsLink (unblockByDestHost store host now).1 urlId :=
  holdsLink_of_lookup (lookup_unblockByDestHost store host now urlId)
    (fun _ => held_afterUnblock) h

theorem holdsLink_blockActiveByAliases {pairs : List (String × String)}
    (h : HoldsLink store urlId) :
    HoldsLink (blockActiveByAliases store pairs reason now).1 urlId :=
  holdsLink_of_lookup (lookup_blockActiveByAliases store pairs reason now urlId)
    (fun _ => held_afterAliases) h

/-- A named link that the per-link block finds ACTIVE or held is held afterwards. -/
theorem holdsLink_blockActiveByAliases_of_mem {pairs : List (String × String)} {row : UrlRow}
    (hrow : row ∈ store.lookup urlId) (hmem : (row.linkAlias, row.domain) ∈ pairs)
    (hfinds : row.status = .active ∨ Held row) :
    HoldsLink (blockActiveByAliases store pairs reason now).1 urlId := by
  refine ⟨afterAliases pairs reason now row, ?_,
    hfinds.elim (held_afterAliases_of_active hmem) held_afterAliases⟩
  rw [lookup_blockActiveByAliases, hrow]
  rfl

end

end UrlRepository

namespace LegacyUrlRepository

/-! ## v1 and emoji links -/

variable {store : LegacyUrlStore} {code host reason : String} {now : Int}

/-- The link exists and carries the flag. -/
def IsBlocked (store : LegacyUrlStore) (code : String) : Prop :=
  ∃ row ∈ store.lookup code, row.blocked.is true = true

instance : Decidable (IsBlocked store code) := by unfold IsBlocked; infer_instance

private theorem isBlocked_updateMany_setBlocked (q : LegacyUrlRow → Bool)
    (h : IsBlocked store code) :
    IsBlocked (store.updateMany q (setBlocked reason now)) code := by
  obtain ⟨row, hrow, hblocked⟩ := h
  refine ⟨_, by rw [lookup_updateMany, hrow]; rfl, ?_⟩
  unfold applyWhere
  split
  · rfl
  · exact hblocked

theorem isBlocked_blockByDestHost (h : IsBlocked store code) :
    IsBlocked (blockByDestHost store host reason now).1 code :=
  isBlocked_updateMany_setBlocked _ h

theorem isBlocked_blockByIds {codes : List String} (h : IsBlocked store code) :
    IsBlocked (blockByIds store codes reason now).1 code := by
  unfold blockByIds
  split
  · exact h
  · exact isBlocked_updateMany_setBlocked _ h

/-- A named link that exists is blocked afterwards. -/
theorem isBlocked_blockByIds_of_mem {codes : List String} {row : LegacyUrlRow}
    (hrow : row ∈ store.lookup code) (hcode : code ∈ codes) :
    IsBlocked (blockByIds store codes reason now).1 code := by
  by_cases hblocked : row.blocked.is true = true
  · exact isBlocked_blockByIds ⟨row, hrow, hblocked⟩
  · have hid : row.code = code := (lookup_eq_some_iff.1 hrow).2
    have hsel : (blockIdsFilter codes).Matches row = true := by simp [hid, hcode, hblocked]
    rw [blockByIds, if_neg (List.ne_nil_of_mem hcode)]
    refine ⟨_, by rw [lookup_updateMany, hrow]; rfl, ?_⟩
    rw [applyWhere_of_matches _ hsel]
    rfl

/-- The link's destination is the host. -/
def OnHost (store : LegacyUrlStore) (code host : String) : Prop :=
  ∃ row ∈ store.lookup code, row.dest.any (·.host = host) = true

instance : Decidable (OnHost store code host) := by unfold OnHost; infer_instance

/-- Unblocking a host leaves a blocked link on another host alone. -/
theorem isBlocked_unblockByDestHost (h : IsBlocked store code)
    (hoff : ¬OnHost store code host) : IsBlocked (unblockByDestHost store host now).1 code := by
  obtain ⟨row, hrow, hblocked⟩ := h
  have hsel : (unblockFilter host).Matches row = false := by
    rw [matches_unblockFilter, Bool.and_eq_false_iff]
    exact .inl (Bool.eq_false_iff.2 fun hon => hoff ⟨row, hrow, hon⟩)
  refine ⟨row, ?_, hblocked⟩
  rw [unblockByDestHost, lookup_updateMany, hrow, Option.map_some,
    applyWhere_of_not_matches _ hsel]
  rfl

theorem isBlocked_unblock {other : String} (h : IsBlocked store code) (hne : code ≠ other) :
    IsBlocked (unblock store other now).1 code := by
  obtain ⟨row, hrow, hblocked⟩ := h
  have hid : row.code = code := (lookup_eq_some_iff.1 hrow).2
  have hsel : (unblockOneFilter other).Matches row = false := by simp [hid, hne]
  refine ⟨row, ?_, hblocked⟩
  rw [unblock, lookup_updateMany, hrow, Option.map_some, applyWhere_of_not_matches _ hsel]
  rfl

end LegacyUrlRepository

/-! ## Runs of the enforcer -/

namespace SafetyEnforcer

/-- A link of one of the three schemas. -/
inductive LinkRef where
  | v2 (urlId : ObjectId)
  | v1 (code : String)
  | emoji (code : String)
  deriving DecidableEq

/-- The enforcer's operations and the restores of single v1 and emoji links. -/
inductive Op where
  | blockHost (host reason : String) (now : Int)
  | blockMatching (host : String) (matcher : String → Bool) (reason : String) (now : Int)
  | blockAliases (pairs : List (String × String)) (host reason : String) (now : Int)
  | unblockHost (host : String) (now : Int)
  | restoreV1 (code : String) (now : Int)
  | restoreEmoji (code : String) (now : Int)

variable (cfg : EnforcerConfig)

/-- Run one operation. -/
def Op.run (s : Stores) : Op → Stores
  | .blockHost host reason now => (SafetyEnforcer.blockHost cfg host reason now s).1
  | .blockMatching host matcher reason now =>
    (SafetyEnforcer.blockMatching cfg host matcher reason now s).1
  | .blockAliases pairs host reason now =>
    (SafetyEnforcer.blockAliases cfg pairs host reason now s).1
  | .unblockHost host now => (SafetyEnforcer.unblockHost cfg host now s).1
  | .restoreV1 code now => { s with legacy := (LegacyUrlRepository.unblock s.legacy code now).1 }
  | .restoreEmoji code now =>
    { s with emoji := (LegacyUrlRepository.unblock s.emoji code now).1 }

/-- The `(alias, domain)` pairs a per-link block names. -/
def Op.pairs (s : Stores) : Op → List (String × String)
  | .blockMatching host matcher _ _ => matchingPairs s.urls host matcher
  | .blockAliases pairs _ _ _ => pairs
  | _ => []

/-- The v1 short codes a per-link block names. -/
def Op.v1Codes (s : Stores) : Op → List String
  | .blockMatching host matcher _ _ => matchingCodes s.legacy host matcher
  | _ => []

/-- The emoji aliases a per-link block names. -/
def Op.emojiCodes (s : Stores) : Op → List String
  | .blockMatching host matcher _ _ => matchingCodes s.emoji host matcher
  | _ => []

/-- The operation is a per-link block of the link. -/
def Op.Names (s : Stores) (op : Op) : LinkRef → Prop
  | .v2 urlId => ∃ row ∈ s.urls.lookup urlId, (row.linkAlias, row.domain) ∈ op.pairs s
  | .v1 code => (∃ row, s.legacy.lookup code = some row) ∧ code ∈ op.v1Codes s
  | .emoji code => (∃ row, s.emoji.lookup code = some row) ∧ code ∈ op.emojiCodes s

/-- The operation is the restore of the link. -/
def Op.Restores : Op → LinkRef → Prop
  | .restoreV1 code _, .v1 code' => code = code'
  | .restoreEmoji code _, .emoji code' => code = code'
  | _, _ => False

/-- The stores, with the links that have a per-link block no restore has followed. -/
structure Ledger where
  stores : Stores
  outstanding : Set LinkRef

/-- Run one operation and keep the ledger. -/
def Ledger.step (l : Ledger) (op : Op) : Ledger where
  stores := op.run cfg l.stores
  outstanding := {ref | ref ∈ l.outstanding ∧ ¬op.Restores ref ∨ op.Names l.stores ref}

/-- The link exists and is BLOCKED. -/
def IsBlocked (s : Stores) : LinkRef → Prop
  | .v2 urlId => ∃ row ∈ s.urls.lookup urlId, row.status = .blocked
  | .v1 code => LegacyUrlRepository.IsBlocked s.legacy code
  | .emoji code => LegacyUrlRepository.IsBlocked s.emoji code

/-- The link is blocked in a way no unblocking of another host reverts. -/
def IsHeld (s : Stores) : LinkRef → Prop
  | .v2 urlId => UrlRepository.HoldsLink s.urls urlId
  | .v1 code => LegacyUrlRepository.IsBlocked s.legacy code
  | .emoji code => LegacyUrlRepository.IsBlocked s.emoji code

/-- A per-link block finds each v2 link it names ACTIVE or held already, and no host is
unblocked while a v1 or emoji link on it has an outstanding per-link block. -/
def Respects (l : Ledger) : Op → Prop
  | .unblockHost host _ =>
    (∀ code, .v1 code ∈ l.outstanding → ¬LegacyUrlRepository.OnHost l.stores.legacy code host) ∧
      ∀ code, .emoji code ∈ l.outstanding →
        ¬LegacyUrlRepository.OnHost l.stores.emoji code host
  | op => ∀ row ∈ l.stores.urls.docs, (row.linkAlias, row.domain) ∈ op.pairs l.stores →
      row.status = .active ∨ UrlRepository.Held row

/-- A held link that is not restored stays held, as long as the host of a v1 or emoji link is
not unblocked under it. -/
theorem isHeld_run {s : Stores} {ref : LinkRef} (op : Op) (h : IsHeld s ref)
    (hres : ¬op.Restores ref)
    (hoff : ∀ host now, op = .unblockHost host now →
      (∀ code, ref = .v1 code → ¬LegacyUrlRepository.OnHost s.legacy code host) ∧
        ∀ code, ref = .emoji code → ¬LegacyUrlRepository.OnHost s.emoji code host) :
    IsHeld (op.run cfg s) ref := by
  cases ref with
  | v2 urlId =>
    cases op with
    | blockHost host reason now => exact UrlRepository.holdsLink_blockActiveByDestHost h
    | blockMatching host matcher reason now =>
      exact UrlRepository.holdsLink_blockActiveByAliases h
    | blockAliases pairs host reason now =>
      exact UrlRepository.holdsLink_blockActiveByAliases h
    | unblockHost host now => exact UrlRepository.holdsLink_unblockByDestHost h
    | restoreV1 other now => exact h
    | restoreEmoji other now => exact h
  | v1 code =>
    cases op with
    | blockHost host reason now => exact LegacyUrlRepository.isBlocked_blockByDestHost h
    | blockMatching host matcher reason now =>
      exact LegacyUrlRepository.isBlocked_blockByIds h
    | blockAliases pairs host reason now => exact h
    | unblockHost host now =>
      exact LegacyUrlRepository.isBlocked_unblockByDestHost h ((hoff host now rfl).1 code rfl)
    | restoreV1 other now =>
      exact LegacyUrlRepository.isBlocked_unblock h fun heq => hres heq.symm
    | restoreEmoji other now => exact h
  | emoji code =>
    cases op with
    | blockHost host reason now => exact LegacyUrlRepository.isBlocked_blockByDestHost h
    | blockMatching host matcher reason now =>
      exact LegacyUrlRepository.isBlocked_blockByIds h
    | blockAliases pairs host reason now => exact h
    | unblockHost host now =>
      exact LegacyUrlRepository.isBlocked_unblockByDestHost h ((hoff host now rfl).2 code rfl)
    | restoreV1 other now => exact h
    | restoreEmoji other now =>
      exact LegacyUrlRepository.isBlocked_unblock h fun heq => hres heq.symm

/-- A per-link block that finds the links it names ACTIVE or held holds each of them. -/
theorem isHeld_run_of_names {s : Stores} {ref : LinkRef} (op : Op) (h : op.Names s ref)
    (hfinds : ∀ row ∈ s.urls.docs, (row.linkAlias, row.domain) ∈ op.pairs s →
      row.status = .active ∨ UrlRepository.Held row) :
    IsHeld (op.run cfg s) ref := by
  cases ref with
  | v2 urlId =>
    obtain ⟨row, hrow, hmem⟩ := h
    have hrow' := hfinds row (lookup_eq_some_iff.1 hrow).1 hmem
    cases op with
    | blockMatching host matcher reason now =>
      exact UrlRepository.holdsLink_blockActiveByAliases_of_mem hrow hmem hrow'
    | blockAliases pairs host reason now =>
      exact UrlRepository.holdsLink_blockActiveByAliases_of_mem hrow hmem hrow'
    | _ => simp [Op.pairs] at hmem
  | v1 code =>
    obtain ⟨⟨row, hrow⟩, hmem⟩ := h
    cases op with
    | blockMatching host matcher reason now =>
      exact LegacyUrlRepository.isBlocked_blockByIds_of_mem hrow hmem
    | _ => simp [Op.v1Codes] at hmem
  | emoji code =>
    obtain ⟨⟨row, hrow⟩, hmem⟩ := h
    cases op with
    | blockMatching host matcher reason now =>
      exact LegacyUrlRepository.isBlocked_blockByIds_of_mem hrow hmem
    | _ => simp [Op.emojiCodes] at hmem

theorem isHeld_step {l : Ledger} (op : Op) (h : ∀ ref ∈ l.outstanding, IsHeld l.stores ref)
    (hresp : Respects l op) :
    ∀ ref ∈ (l.step cfg op).outstanding, IsHeld (l.step cfg op).stores ref := by
  rintro ref (⟨hout, hres⟩ | hnames)
  · refine isHeld_run cfg op (h ref hout) hres ?_
    rintro host now rfl
    exact ⟨fun code heq => hresp.1 code (heq ▸ hout), fun code heq => hresp.2 code (heq ▸ hout)⟩
  · refine isHeld_run_of_names cfg op hnames ?_
    cases op with
    | unblockHost host now => simp [Op.pairs]
    | _ => exact hresp

theorem IsHeld.isBlocked {s : Stores} {ref : LinkRef} (h : IsHeld s ref) : IsBlocked s ref := by
  cases ref with
  | v2 urlId =>
    obtain ⟨row, hrow, hheld⟩ := h
    exact ⟨row, hrow, hheld.1⟩
  | v1 code => exact h
  | emoji code => exact h

/-- Over every run of host blocks, per-link blocks, host unblocks and restores whose steps all
respect the outstanding per-link blocks, a link is BLOCKED from its per-link block to its
restore (`enforcer.py:74-223`). -/
theorem outstanding_link_is_blocked (s : Stores) (ops : List Op)
    (hresp : Run.Guarded (Ledger.step cfg) Respects ⟨s, ∅⟩ ops) :
    ∀ l ∈ List.scanl (Ledger.step cfg) ⟨s, ∅⟩ ops, ∀ ref ∈ l.outstanding,
      IsBlocked l.stores ref := by
  have hheld := Run.forall_mem_scanl
    (P := fun l : Ledger => ∀ ref ∈ l.outstanding, IsHeld l.stores ref)
    (fun l op h hr => isHeld_step cfg op h hr) (s := ⟨s, ∅⟩) (by simp) hresp
  exact fun l hl ref href => (hheld l hl ref href).isBlocked

/-- A deployment without an edge, whose links have no emoji aliases. -/
def plainConfig : EnforcerConfig where
  systemDefaultDomain := "spoo.me"
  edgeEnabled := false
  v2LookupCode := id

/-- The two v2 links of `twoLinks` and a v1 link on the first host. -/
def threeLinks : Stores where
  urls := UrlRepository.twoLinks
  legacy := {
    docs := [{
      code := "oldone"
      url := "https://a.example/old"
      dest := some { scheme := "https", host := "a.example", registrableDomain := "a.example" } }]
    nodup_id := by decide
    nodup_key := by decide }
  emoji := .empty

theorem outstanding_link_is_blocked_threeLinks :
    IsBlocked ([Op.blockAliases [("aaa", "spoo.me")] "a.example" "phishing" 0,
      .unblockHost "a.example" 1].foldl (Ledger.step plainConfig) ⟨threeLinks, ∅⟩).stores
        (.v2 1) := by
  refine outstanding_link_is_blocked plainConfig threeLinks
    [.blockAliases [("aaa", "spoo.me")] "a.example" "phishing" 0, .unblockHost "a.example" 1]
    ⟨?_, ⟨?_, ?_⟩, trivial⟩ _ (.tail _ (.tail _ (.head _))) _ (.inl ⟨.inr ⟨_, rfl, ?_⟩, id⟩)
  · show ∀ row ∈ threeLinks.urls.docs, (row.linkAlias, row.domain) ∈ [("aaa", "spoo.me")] →
      row.status = .active ∨ UrlRepository.Held row
    decide
  · rintro code (⟨hout, -⟩ | ⟨-, hnames⟩)
    · exact absurd hout (Set.notMem_empty _)
    · cases hnames
  · rintro code (⟨hout, -⟩ | ⟨-, hnames⟩)
    · exact absurd hout (Set.notMem_empty _)
    · cases hnames
  · decide

/-- A per-link block of a link that is already host-blocked is lost when the host is
unblocked, and so is any per-link block of a v1 link. -/
theorem per_link_block_undone_by_host_unblock :
    (¬∀ (cfg : EnforcerConfig) (s : Stores) (ops : List Op) (host : String) (now : Int)
      (urlId : ObjectId),
      .v2 urlId ∈ (ops.foldl (Ledger.step cfg) ⟨s, ∅⟩).outstanding →
        IsBlocked ((Op.unblockHost host now).run cfg
          (ops.foldl (Ledger.step cfg) ⟨s, ∅⟩).stores) (.v2 urlId)) ∧
    ¬∀ (cfg : EnforcerConfig) (s : Stores) (ops : List Op) (host : String) (now : Int)
      (code : String),
      .v1 code ∈ (ops.foldl (Ledger.step cfg) ⟨s, ∅⟩).outstanding →
        IsBlocked ((Op.unblockHost host now).run cfg
          (ops.foldl (Ledger.step cfg) ⟨s, ∅⟩).stores) (.v1 code) := by
  constructor
  · intro hall
    have hblocked := hall plainConfig threeLinks
      [.blockHost "a.example" "feed" 0, .blockAliases [("aaa", "spoo.me")] "a.example"
        "phishing" 1] "a.example" 2 1 (.inr ?_)
    · revert hblocked
      show ¬∃ row ∈ _, _
      decide
    · show ∃ row ∈ _, _
      decide
  · intro hall
    have hblocked := hall plainConfig threeLinks
      [.blockMatching "a.example" (fun _ => true) "phishing" 0] "a.example" 1 "oldone" (.inr ?_)
    · revert hblocked
      show ¬LegacyUrlRepository.IsBlocked _ _
      decide
    · exact ⟨⟨_, rfl⟩, by decide⟩

/-! ## What block_matching reaches -/

/-- After `block_matching` no link is ACTIVE that its listing of the host held and whose long
URL the matcher accepts. The listing stops at 50,000 links (`enforcer.py:118-170`). -/
theorem blockMatching_blocks_listed (cfg : EnforcerConfig) (s : Stores) (host : String)
    (matcher : String → Bool) (reason : String) (now : Int) :
    ∀ row ∈ (s.urls.docs.filter fun row => decide (host ∈ row.hosts)).take 50000,
      matcher row.longUrl = true →
      ∀ row' ∈ (blockMatching cfg host matcher reason now s).1.urls.lookup row.id,
        row'.status ≠ .active := by
  intro row hrow hmatch row' hrow'
  have hdocs : row ∈ s.urls.docs := (List.mem_filter.1 (List.mem_of_mem_take hrow)).1
  have hpair : (row.linkAlias, row.domain) ∈ matchingPairs s.urls host matcher := by
    have hfind : s.urls.find (UrlRepository.destHostFilter host).Matches =
        s.urls.docs.filter fun row => decide (host ∈ row.hosts) :=
      List.filter_congr fun row _ => UrlRepository.matches_destHostFilter host row
    simp only [matchingPairs, hits, UrlRepository.listByDestHostWithUrls, hfind, List.mem_map,
      List.mem_filter]
    exact ⟨_, ⟨⟨row, hrow, rfl⟩, hmatch⟩, rfl⟩
  have hlook : s.urls.lookup row.id = some row := lookup_eq_some_iff.2 ⟨hdocs, rfl⟩
  rw [urls_blockMatching, UrlRepository.lookup_blockActiveByAliases, hlook, Option.map_some,
    Option.mem_some] at hrow'
  subst hrow'
  by_cases hact : row.status = .active
  · have hheld : UrlRepository.Held (UrlRepository.afterAliases _ reason now row) :=
      UrlRepository.held_afterAliases_of_active hpair hact
    rw [hheld.1]
    decide
  · rw [UrlRepository.afterAliases, applyWhere_of_not_matches _
      (by simp [UrlRepository.aliasesSelect, hact])]
    exact hact

theorem blockMatching_blocks_listed_threeLinks :
    (UrlRepository.afterAliases [("aaa", "spoo.me")] "phishing" 0
      (UrlRepository.linkOn 1 "aaa" "a.example")).status ≠ .active :=
  blockMatching_blocks_listed plainConfig threeLinks "a.example" (fun _ => true) "phishing" 0
    (UrlRepository.linkOn 1 "aaa" "a.example") (by decide) rfl _ rfl

/-- A link whose main destination is fine and that sends one country to `a.example`. -/
def geoLink : UrlRow where
  id := 1
  linkAlias := "geolink"
  domain := "spoo.me"
  longUrl := "https://b.example/fine"
  geoRules := some (PyDict.ofList [("IN", "https://a.example/phish")])
  dest := UrlDestination.forLink asciiUrlLib "https://b.example/fine"
    (some (PyDict.ofList [("IN", "https://a.example/phish")])) [] none none

/-- The matcher sees the long URL only: a geo-rule destination on the host that it accepts
stays up. -/
theorem geo_destination_not_matched :
    ¬∀ (lib : UrlLib) (cfg : EnforcerConfig) (s : Stores) (host : String)
      (matcher : String → Bool) (reason : String) (now : Int),
      (∀ row ∈ s.urls.docs, row.IsStamped lib) →
      ∀ row ∈ (blockMatching cfg host matcher reason now s).1.urls.docs,
        (∃ url ∈ row.destinationUrls, destinationHost lib url = some host ∧
          matcher url = true) → row.status ≠ .active := by
  intro hall
  have hblocked := hall asciiUrlLib plainConfig
    { urls := ⟨[geoLink], by decide, by decide⟩
      legacy := .empty
      emoji := .empty }
    "a.example" (fun url => url = "https://a.example/phish") "phishing" 0 ?_ geoLink ?_ ?_
  · exact hblocked rfl
  · intro row hrow
    rw [List.mem_singleton.1 hrow]
    rfl
  · decide
  · exact ⟨"https://a.example/phish", by decide, by decide, by decide⟩

end SafetyEnforcer

end Spoo
