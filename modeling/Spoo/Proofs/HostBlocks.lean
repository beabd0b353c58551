import Spoo.Lib.Run
import Spoo.Repositories.UrlRepository

/-!
# Host blocks and their causes

`blocked_hosts` records why a link is blocked. A host block writes it in two updates and a
host unblock reads it in two; here is what each does to one link, which causes a link can
collect, and when unblocking its hosts brings it back.
-/

namespace Spoo

open Mongo Mongo.Collection

namespace UrlRepository

/-! ## One link under a host block -/

/-- The second update of a host block reaches every safety-blocked link: the literal's own
`"$or"` takes the place of the one `dest_host_filter` brings, and no host is left in it. -/
@[simp] theorem matches_addCauseFilter (host : String) (row : UrlRow) :
    (addCauseFilter host).Matches row =
      (decide (row.status = .blocked) && row.blockedReason.isPresent &&
        decide (row.blockedHosts ≠ .null)) := by
  have hnull : (row.blockedHosts.isArray || !row.blockedHosts.isPresent) =
      decide (row.blockedHosts ≠ .null) := by
    cases row.blockedHosts <;> rfl
  simp [addCauseFilter, destHostFilter, Query.Matches, PyDict.ofList, PyDict.assignEntry,
    Query.or, Query.field, statusIs, blockedReasonExists, blockedHostsMissing, ← hnull,
    Bool.and_comm]

/-- A host block may add a cause to the link: it is blocked, by a safety block, and not for
itself alone. -/
def Collects (row : UrlRow) : Prop :=
  row.status = .blocked ∧ row.blockedReason.isPresent = true ∧ row.blockedHosts ≠ .null

instance (row : UrlRow) : Decidable (Collects row) := by unfold Collects; infer_instance

/-- What `block_active_by_dest_host` does to one link. -/
def afterBlock (host reason : String) (now : Int) (row : UrlRow) : UrlRow :=
  applyWhere (addCauseFilter host).Matches (addCause host).toUpdate
    (applyWhere (blockFilter host).Matches (blockWith reason (.value [host]) now).toUpdate row)

theorem docs_blockActiveByDestHost (store : UrlStore) (host reason : String) (now : Int) :
    (blockActiveByDestHost store host reason now).1.docs =
      store.docs.map (afterBlock host reason now) := by
  simp [blockActiveByDestHost, updateMany, afterBlock, Function.comp_def]

theorem lookup_blockActiveByDestHost (store : UrlStore) (host reason : String) (now : Int)
    (urlId : ObjectId) : (blockActiveByDestHost store host reason now).1.lookup urlId =
      (store.lookup urlId).map (afterBlock host reason now) := by
  simp only [blockActiveByDestHost, lookup_updateMany, Option.map_map]
  rfl

section

variable {host reason : String} {now : Int} {row : UrlRow}

/-- An ACTIVE link on the host is blocked, with the host as its one cause. -/
theorem afterBlock_of_active (hact : row.status = .active) (hhost : host ∈ row.hosts) :
    afterBlock host reason now row =
      (blockWith reason (.value [host]) now).apply row := by
  have hfst : (blockFilter host).Matches row = true := by simp [hact, hhost]
  have hsnd : (addCauseFilter host).Matches
      ((blockWith reason (.value [host]) now).apply row) = true := by
    simp [blockWith, DocField.isPresent]
  rw [afterBlock, applyWhere_of_matches _ hfst, applyWhere_of_matches _ hsnd]
  simp [addCause, causesBefore, blockWith, setUnion]

/-- A safety-blocked link gains the host as a cause, whether or not it is on that host. -/
theorem afterBlock_of_collects (h : Collects row) :
    afterBlock host reason now row = (addCause host).apply row := by
  have hfst : (blockFilter host).Matches row = false := by simp [h.1]
  have hsnd : (addCauseFilter host).Matches row = true := by simp [h.1, h.2.1, h.2.2]
  rw [afterBlock, applyWhere_of_not_matches _ hfst, applyWhere_of_matches _ hsnd]

/-- Any other link stays as it is. -/
theorem afterBlock_of_untouched (hact : ¬(row.status = .active ∧ host ∈ row.hosts))
    (hcol : ¬Collects row) : afterBlock host reason now row = row := by
  have hfst : (blockFilter host).Matches row = false := by
    simpa [imp_not_comm] using hact
  have hsnd : (addCauseFilter host).Matches row = false := by
    simpa [Collects, and_assoc] using hcol
  rw [afterBlock, applyWhere_of_not_matches _ hfst, applyWhere_of_not_matches _ hsnd]

/-- No update of a host block touches the destinations of a link. -/
theorem hosts_afterBlock : (afterBlock host reason now row).hosts = row.hosts := by
  by_cases hact : row.status = .active ∧ host ∈ row.hosts
  · rw [afterBlock_of_active hact.1 hact.2]; rfl
  · by_cases hcol : Collects row
    · rw [afterBlock_of_collects hcol]; rfl
    · rw [afterBlock_of_untouched hact hcol]

/-! ## One link under a host unblock -/

/-- What `unblock_by_dest_host` does to one link. -/
def afterUnblock (host : String) (now : Int) (row : UrlRow) : UrlRow :=
  applyWhere (releaseFilter host).Matches (release now).toUpdate
    (applyWhere (pullFilter host).Matches (pullHost host).toUpdate row)

theorem docs_unblockByDestHost (store : UrlStore) (host : String) (now : Int) :
    (unblockByDestHost store host now).1.docs = store.docs.map (afterUnblock host now) := by
  simp [unblockByDestHost, updateMany, afterUnblock, Function.comp_def]

theorem lookup_unblockByDestHost (store : UrlStore) (host : String) (now : Int)
    (urlId : ObjectId) : (unblockByDestHost store host now).1.lookup urlId =
      (store.lookup urlId).map (afterUnblock host now) := by
  simp only [unblockByDestHost, lookup_updateMany, Option.map_map]
  rfl

@[simp] theorem matches_pullFilter :
    (pullFilter host).Matches row =
      (decide (host ∈ row.blockedHosts.elems) && decide (row.status = .blocked)) := by
  have hhas : row.blockedHosts.has host = decide (host ∈ row.blockedHosts.elems) := by
    rw [Bool.eq_iff_iff]
    simp
  simp [pullFilter, Query.Matches, PyDict.ofList, PyDict.assignEntry, Query.field, statusIs,
    hhas]

/-- A host unblock releases a safety-blocked link that has no cause left and is on the host,
or whose block is older than the causes and was for that host. -/
theorem matches_releaseFilter :
    (releaseFilter host).Matches row = true ↔
      (host ∈ row.hosts ∧ row.blockedHosts = .value [] ∨
        row.blockedHosts = .missing ∧ ∃ dest ∈ row.dest, dest.host = host) ∧
      row.status = .blocked ∧ row.blockedReason.isPresent = true := by
  have hcause : (noCauseLeft host).Matches row = true ↔
      host ∈ row.hosts ∧ row.blockedHosts = .value [] := by
    rw [← decide_eq_true_iff (p := host ∈ row.hosts), ← matches_destHostFilter]
    simp [noCauseLeft, destHostFilter, Query.Matches, PyDict.ofList, PyDict.assignEntry,
      Query.field, Query.or, DocField.is]
  have hbefore : (blockedBeforeCauses host).Matches row = true ↔
      row.blockedHosts = .missing ∧ ∃ dest ∈ row.dest, dest.host = host := by
    have hmissing : (!row.blockedHosts.isPresent) = true ↔ row.blockedHosts = .missing := by
      cases row.blockedHosts <;> simp [DocField.isPresent]
    rw [← hmissing]
    simp [blockedBeforeCauses, Query.Matches, PyDict.ofList, PyDict.assignEntry, Query.field,
      blockedHostsMissing, destHostIs, Option.any_eq_true]
  rw [← hcause, ← hbefore]
  unfold releaseFilter
  generalize noCauseLeft host = caused
  generalize blockedBeforeCauses host = before
  simp [Query.Matches, PyDict.ofList, PyDict.assignEntry, Query.field, Query.or, statusIs,
    blockedReasonExists]

/-- An unblock does not touch the destinations of a link. -/
theorem hosts_afterUnblock : (afterUnblock host now row).hosts = row.hosts := by
  unfold afterUnblock applyWhere
  split <;> split <;> rfl

/-- An unblock adds no cause. -/
theorem causes_afterUnblock {h : String}
    (hmem : h ∈ (afterUnblock host now row).blockedHosts.elems) :
    h ∈ row.blockedHosts.elems := by
  have hpull : h ∈ (applyWhere (pullFilter host).Matches (pullHost host).toUpdate
      row).blockedHosts.elems := by
    unfold afterUnblock at hmem
    generalize applyWhere (pullFilter host).Matches (pullHost host).toUpdate row = pulled
      at hmem
    unfold applyWhere at hmem
    split at hmem <;> exact hmem
  unfold applyWhere at hpull
  split at hpull
  · exact (show h ∈ row.blockedHosts.elems ∧ h ≠ host by simpa [pullHost] using hpull).1
  · exact hpull

end

/-! ## Which causes a link collects -/

/-- A host block or a host unblock. -/
inductive HostOp where
  | block (host reason : String) (now : Int)
  | unblock (host : String) (now : Int)

/-- Run the repository call. -/
def HostOp.run (store : UrlStore) : HostOp → UrlStore
  | .block host reason now => (blockActiveByDestHost store host reason now).1
  | .unblock host now => (unblockByDestHost store host now).1

/-- The repository calls that write `blocked_hosts`. -/
inductive BlockOp where
  | onHost (op : HostOp)
  | onAliases (pairs : List (String × String)) (reason : String) (now : Int)

/-- Run the repository call. -/
def BlockOp.run (store : UrlStore) : BlockOp → UrlStore
  | .onHost op => op.run store
  | .onAliases pairs reason now => (blockActiveByAliases store pairs reason now).1

/-- Every cause of the link is one of its own destination hosts. -/
def OwnCauses (row : UrlRow) : Prop := ∀ h ∈ row.blockedHosts.elems, h ∈ row.hosts

/-- No link a host block would add a cause to is off that host. -/
def CollectsOwn (store : UrlStore) : BlockOp → Prop
  | .onHost (.block host _ _) => ∀ row ∈ store.docs, Collects row → host ∈ row.hosts
  | _ => True

theorem mem_causesBefore {row : UrlRow} {h : String} (hown : OwnCauses row)
    (hmem : h ∈ causesBefore row) : h ∈ row.hosts := by
  unfold causesBefore at hmem
  split at hmem
  · rename_i hosts hcauses
    exact hown h (by simpa [hcauses, DocField.elems] using hmem)
  · cases hdest : row.dest with
    | none => simp [hdest] at hmem
    | some dest =>
      have heq : h = dest.host := by simpa [hdest] using hmem
      simp [UrlRow.hosts, hdest, UrlDestination.hosts, heq]

/-- A host block keeps a link's causes its own exactly when it adds none to a link off the
host. -/
theorem ownCauses_afterBlock_iff {host reason : String} {now : Int} {row : UrlRow}
    (hown : OwnCauses row) :
    OwnCauses (afterBlock host reason now row) ↔ (Collects row → host ∈ row.hosts) := by
  by_cases hact : row.status = .active ∧ host ∈ row.hosts
  · rw [afterBlock_of_active hact.1 hact.2]
    refine iff_of_true (fun h hmem => ?_) fun _ => hact.2
    have heq : h = host := by simpa [blockWith, DocField.elems] using hmem
    exact heq ▸ hact.2
  · by_cases hcol : Collects row
    · rw [afterBlock_of_collects hcol]
      constructor
      · intro h _
        exact h host (by simp [addCause, DocField.elems])
      · intro hhost h hmem
        have hmem' : h ∈ causesBefore row ∨ h = host := by
          simpa [addCause, DocField.elems] using hmem
        rcases hmem' with hmem' | rfl
        · exact show h ∈ row.hosts from mem_causesBefore hown hmem'
        · exact hhost hcol
    · rw [afterBlock_of_untouched hact hcol]
      exact iff_of_true hown fun h => absurd h hcol

/-- A per-link block leaves every link's causes alone or clears them. -/
theorem ownCauses_blockActiveByAliases {store : UrlStore} {pairs : List (String × String)}
    {reason : String} {now : Int} (hown : ∀ row ∈ store.docs, OwnCauses row) :
    ∀ row ∈ (blockActiveByAliases store pairs reason now).1.docs, OwnCauses row := by
  refine List.foldlRecOn (aliasChunks pairs) (blockChunk reason now)
    (motive := fun acc : UrlStore × Nat => ∀ row ∈ acc.1.docs, OwnCauses row) hown
    fun acc hacc chunk _ row hrow => ?_
  obtain ⟨row₀, hrow₀, rfl⟩ := mem_updateMany.1 hrow
  unfold applyWhere
  split
  · intro h hmem
    simp [blockWith, DocField.elems] at hmem
  · exact hacc row₀ hrow₀

/-- One call keeps all causes own exactly when it adds no foreign one. -/
theorem ownCauses_run_iff (store : UrlStore) (op : BlockOp)
    (hown : ∀ row ∈ store.docs, OwnCauses row) :
    (∀ row ∈ (op.run store).docs, OwnCauses row) ↔ CollectsOwn store op := by
  match op with
  | .onHost (.block host reason now) =>
    simp only [BlockOp.run, HostOp.run, docs_blockActiveByDestHost, List.forall_mem_map,
      CollectsOwn]
    exact forall₂_congr fun row hrow => ownCauses_afterBlock_iff (hown row hrow)
  | .onHost (.unblock host now) =>
    refine iff_of_true ?_ trivial
    simp only [BlockOp.run, HostOp.run, docs_unblockByDestHost, List.forall_mem_map]
    intro row hrow h hmem
    rw [hosts_afterUnblock]
    exact hown row hrow h (causes_afterUnblock hmem)
  | .onAliases pairs reason now =>
    exact iff_of_true (ownCauses_blockActiveByAliases hown) trivial

/-- Over every run of host blocks, host unblocks and per-link blocks, the causes of all links
stay their own hosts exactly as long as no host block runs while a link off that host is
safety-blocked for its hosts (`url_repository.py:860-896`). -/
theorem causes_are_own_hosts_iff (store : UrlStore) (ops : List BlockOp)
    (hstart : ∀ row ∈ store.docs, row.blockedHosts.elems = []) :
    (∀ s ∈ List.scanl BlockOp.run store ops, ∀ row ∈ s.docs,
        ∀ h ∈ row.blockedHosts.elems, h ∈ row.hosts) ↔
      Run.Guarded BlockOp.run CollectsOwn store ops := by
  refine Run.forall_mem_scanl_iff ownCauses_run_iff fun row hrow h hmem => ?_
  simp [hstart row hrow] at hmem

/-- A link on `host`, with the host as its only destination. -/
def linkOn (id : ObjectId) (linkAlias host : String) : UrlRow where
  id
  linkAlias
  domain := "spoo.me"
  longUrl := "https://" ++ host ++ "/page"
  dest := some { scheme := "https", host, registrableDomain := host }

/-- Two links on two unrelated hosts. -/
def twoLinks : UrlStore where
  docs := [linkOn 1 "aaa" "a.example", linkOn 2 "bbb" "b.example"]
  nodup_id := by decide
  nodup_key := by decide

theorem causes_are_own_hosts_iff_twoLinks :
    (∀ s ∈ List.scanl BlockOp.run twoLinks [.onHost (.block "a.example" "feed" 0)],
        ∀ row ∈ s.docs, ∀ h ∈ row.blockedHosts.elems, h ∈ row.hosts) ↔
      Run.Guarded BlockOp.run CollectsOwn twoLinks [.onHost (.block "a.example" "feed" 0)] :=
  causes_are_own_hosts_iff twoLinks _ (by decide)

/-- Blocking one host and then the other gives the first link the second host as a cause. -/
theorem foreign_cause_of_two_blocks :
    ¬∀ (store : UrlStore) (ops : List BlockOp),
      (∀ row ∈ store.docs, row.blockedHosts.elems = []) →
      ∀ s ∈ List.scanl BlockOp.run store ops, ∀ row ∈ s.docs,
        ∀ h ∈ row.blockedHosts.elems, h ∈ row.hosts := by
  intro hall
  have h := hall twoLinks
    [.onHost (.block "a.example" "feed" 0), .onHost (.block "b.example" "feed" 0)] (by decide)
  revert h
  decide

/-! ## Reversibility -/

/-- The host blocks that stand against a link, as their purpose has it: a block of one of its
hosts sets one, an unblock removes it. -/
def standing (hosts : List String) (causes : Set String) : HostOp → Set String
  | .block host _ _ => if host ∈ hosts then insert host causes else causes
  | .unblock host _ => causes \ {host}

/-- A host block that finds the link blocked is a block of one of its own hosts. -/
def BlocksOwn (urlId : ObjectId) (store : UrlStore) : HostOp → Prop
  | .block host _ _ => ∀ row ∈ store.lookup urlId, row.status = .blocked → host ∈ row.hosts
  | .unblock _ _ => True

instance (urlId : ObjectId) (store : UrlStore) : ∀ op, Decidable (BlocksOwn urlId store op)
  | .block host _ _ => inferInstanceAs
      (Decidable (∀ row ∈ store.lookup urlId, row.status = .blocked → host ∈ row.hosts))
  | .unblock _ _ => inferInstanceAs (Decidable True)

/-- The link shows exactly the blocks that stand against it. -/
structure Shows (row : UrlRow) (causes : Set String) : Prop where
  own : ∀ h ∈ causes, h ∈ row.hosts
  status : causes = ∅ ∧ row.status = .active ∨
    causes.Nonempty ∧ Collects row ∧ ∃ stored, row.blockedHosts = .value stored ∧
      ∀ h, h ∈ stored ↔ h ∈ causes

theorem shows_afterBlock {row : UrlRow} {causes : Set String} {host reason : String} {now : Int}
    (hrow : Shows row causes) (hguard : row.status = .blocked → host ∈ row.hosts) :
    Shows (afterBlock host reason now row)
      (standing row.hosts causes (.block host reason now)) := by
  obtain ⟨hown, ⟨rfl, hact⟩ | ⟨hne, hcol, stored, hstored, hmem⟩⟩ := hrow
  · by_cases hhost : host ∈ row.hosts
    · rw [afterBlock_of_active hact hhost, standing, if_pos hhost]
      refine ⟨?_, .inr ⟨⟨host, .inl rfl⟩, ⟨rfl, rfl, nofun⟩, [host], rfl, by simp⟩⟩
      rintro h (rfl | h')
      · exact hhost
      · cases h'
    · have hcol : ¬Collects row := fun h => by simp [h.1] at hact
      rw [afterBlock_of_untouched (fun h => hhost h.2) hcol, standing, if_neg hhost]
      exact ⟨hown, .inl ⟨rfl, hact⟩⟩
  · have hhost := hguard hcol.1
    rw [afterBlock_of_collects hcol, standing, if_pos hhost]
    refine ⟨?_, .inr ⟨⟨host, .inl rfl⟩, ⟨hcol.1, hcol.2.1, nofun⟩, _, rfl, fun h => ?_⟩⟩
    · rintro h (rfl | h')
      · exact hhost
      · exact hown h h'
    · simp [causesBefore, hstored, hmem, or_comm]

/-- The `$pull` takes the host out of the stored causes. -/
theorem applyWhere_pullFilter {row : UrlRow} {host : String} {stored : List String}
    (hcol : Collects row) (hstored : row.blockedHosts = .value stored) :
    applyWhere (pullFilter host).Matches (pullHost host).toUpdate row =
      { row with blockedHosts := .value (stored.filter (· ≠ host)) } := by
  by_cases hin : host ∈ stored
  · have hpull : (pullFilter host).Matches row = true := by
      simp [hcol.1, hstored, DocField.elems, hin]
    rw [applyWhere_of_matches _ hpull]
    simp [pullHost, hstored, DocField.pull]
  · have hpull : (pullFilter host).Matches row = false := by
      simp [hstored, DocField.elems, hin]
    have hfilter : stored.filter (· ≠ host) = stored :=
      List.filter_eq_self.2 fun h hh => by simpa using fun heq : h = host => hin (heq ▸ hh)
    rw [applyWhere_of_not_matches _ hpull, hfilter, ← hstored]

theorem shows_afterUnblock {row : UrlRow} {causes : Set String} {host : String} {now : Int}
    (hrow : Shows row causes) :
    Shows (afterUnblock host now row) (standing row.hosts causes (.unblock host now)) := by
  obtain ⟨hown, ⟨rfl, hact⟩ | ⟨hne, hcol, stored, hstored, hmem⟩⟩ := hrow
  · have hpull : (pullFilter host).Matches row = false := by simp [hact]
    have hrel : (releaseFilter host).Matches row = false := by
      rw [Bool.eq_false_iff, ne_eq, matches_releaseFilter]
      simp [hact]
    rw [afterUnblock, applyWhere_of_not_matches _ hpull, applyWhere_of_not_matches _ hrel]
    exact ⟨by simp [standing], .inl ⟨by simp [standing], hact⟩⟩
  · have hmem' : ∀ h, h ∈ stored.filter (· ≠ host) ↔ h ∈ causes \ {host} := fun h => by
      simp [hmem]
    rw [afterUnblock, applyWhere_pullFilter hcol hstored, standing]
    by_cases hleft : stored.filter (· ≠ host) = []
    · -- The host was the last cause, so it is one of the link's hosts and releases it.
      have hnone : causes \ {host} = ∅ := by
        ext h
        rw [← hmem', hleft]
        simp
      have hin : host ∈ row.hosts := by
        obtain ⟨h, hh⟩ := hne
        have heq : h = host := by
          by_contra hneq
          exact Set.eq_empty_iff_forall_notMem.1 hnone h ⟨hh, hneq⟩
        exact heq ▸ hown h hh
      have hrel : (releaseFilter host).Matches { row with blockedHosts := .value [] } = true :=
        matches_releaseFilter.2 ⟨.inl ⟨hin, rfl⟩, hcol.1, hcol.2.1⟩
      rw [hleft, applyWhere_of_matches _ hrel, hnone]
      exact ⟨by simp, .inl ⟨rfl, rfl⟩⟩
    · have hrel : (releaseFilter host).Matches
          { row with blockedHosts := .value (stored.filter (· ≠ host)) } = false := by
        rw [Bool.eq_false_iff, ne_eq, matches_releaseFilter]
        rintro ⟨⟨-, heq⟩ | ⟨heq, -⟩, -⟩
        · exact hleft (DocField.value.inj heq)
        · cases heq
      have hsome : (causes \ {host}).Nonempty := by
        obtain ⟨h, hh⟩ := List.exists_mem_of_ne_nil _ hleft
        exact ⟨h, (hmem' h).1 hh⟩
      rw [applyWhere_of_not_matches _ hrel]
      exact ⟨fun h hh => hown h hh.1, .inr ⟨hsome, ⟨hcol.1, hcol.2.1, nofun⟩, _, rfl, hmem'⟩⟩

/-- One host block or unblock, on the store and on the standing causes of a link. -/
theorem shows_run {urlId : ObjectId} {hosts : List String} {store : UrlStore}
    {causes : Set String} (op : HostOp)
    (hlink : ∃ row, store.lookup urlId = some row ∧ row.hosts = hosts ∧ Shows row causes)
    (hguard : BlocksOwn urlId store op) :
    ∃ row, (op.run store).lookup urlId = some row ∧ row.hosts = hosts ∧
      Shows row (standing hosts causes op) := by
  obtain ⟨row, hlook, rfl, hshows⟩ := hlink
  cases op with
  | block host reason now =>
    refine ⟨afterBlock host reason now row, ?_, hosts_afterBlock,
      shows_afterBlock hshows (hguard row hlook)⟩
    simp [HostOp.run, lookup_blockActiveByDestHost, hlook]
  | unblock host now =>
    refine ⟨afterUnblock host now row, ?_, hosts_afterUnblock, shows_afterUnblock hshows⟩
    simp [HostOp.run, lookup_unblockByDestHost, hlook]

/-- Host blocks are reversible: a link that starts ACTIVE is ACTIVE after a run of host blocks
and unblocks exactly when no block of one of its hosts still stands, and BLOCKED otherwise, in
every run in which a block that finds it blocked is a block of one of its own hosts. -/
theorem active_iff_no_block_stands (store : UrlStore) (urlId : ObjectId) (row : UrlRow)
    (ops : List HostOp) (hrow : store.lookup urlId = some row) (hact : row.status = .active)
    (hguard : Run.Guarded HostOp.run (BlocksOwn urlId) store ops) :
    ∃ row', (ops.foldl HostOp.run store).lookup urlId = some row' ∧
      (row'.status = .active ↔ ops.foldl (standing row.hosts) ∅ = ∅) ∧
      (row'.status = .blocked ↔ ops.foldl (standing row.hosts) ∅ ≠ ∅) := by
  have hstart : Shows row ∅ := ⟨by simp, .inl ⟨rfl, hact⟩⟩
  obtain ⟨row', hlook, -, -, hstatus⟩ := Run.foldl_simulates
    (R := fun store causes => ∃ row', store.lookup urlId = some row' ∧ row'.hosts = row.hosts ∧
      Shows row' causes) (fun _ _ op hr hg => shows_run op hr hg) ⟨row, hrow, rfl, hstart⟩ hguard
  refine ⟨row', hlook, ?_⟩
  rcases hstatus with ⟨hnone, hact'⟩ | ⟨hsome, hcol, -⟩
  · simp [hnone, hact']
  · simp [hsome.ne_empty, hcol.1]

theorem active_iff_no_block_stands_twoLinks :
    ∃ row', ([HostOp.block "a.example" "feed" 0, .unblock "a.example" 1].foldl HostOp.run
        twoLinks).lookup 1 = some row' ∧
      (row'.status = .active ↔ [HostOp.block "a.example" "feed" 0,
        .unblock "a.example" 1].foldl (standing ["a.example"]) ∅ = ∅) ∧
      (row'.status = .blocked ↔ [HostOp.block "a.example" "feed" 0,
        .unblock "a.example" 1].foldl (standing ["a.example"]) ∅ ≠ ∅) :=
  active_iff_no_block_stands twoLinks 1 (linkOn 1 "aaa" "a.example") _ (by decide) (by decide)
    (by decide)

/-- Blocking a second, unrelated host strands a link: unblocking its own only host leaves it
BLOCKED. -/
theorem stranded_by_foreign_block :
    ¬∀ (store : UrlStore) (urlId : ObjectId) (row : UrlRow) (ops : List HostOp),
      store.lookup urlId = some row → row.status = .active →
      ∃ row', (ops.foldl HostOp.run store).lookup urlId = some row' ∧
        (row'.status = .active ↔ ops.foldl (standing row.hosts) ∅ = ∅) ∧
        (row'.status = .blocked ↔ ops.foldl (standing row.hosts) ∅ ≠ ∅) := by
  intro hall
  obtain ⟨row', hlook, hact, -⟩ := hall twoLinks 1 (linkOn 1 "aaa" "a.example")
    [.block "a.example" "feed" 0, .block "b.example" "feed" 1, .unblock "a.example" 2]
    (by decide) (by decide)
  have hstand : [HostOp.block "a.example" "feed" 0, .block "b.example" "feed" 1,
      .unblock "a.example" 2].foldl (standing (linkOn 1 "aaa" "a.example").hosts) ∅ = ∅ := by
    simp [standing, linkOn, UrlRow.hosts, UrlDestination.hosts]
  have hblocked : (([HostOp.block "a.example" "feed" 0, .block "b.example" "feed" 1,
      .unblock "a.example" 2].foldl HostOp.run twoLinks).lookup 1).map (·.status) =
        some .blocked := by decide
  rw [hlook] at hblocked
  have : row'.status = .blocked := by simpa using hblocked
  rw [this] at hact
  exact absurd (hact.2 hstand) (by decide)

end UrlRepository

end Spoo
