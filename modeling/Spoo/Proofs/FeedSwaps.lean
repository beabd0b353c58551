import Spoo.Lib.PyList
import Spoo.Repositories.FeedDomainRepository

/-!
# What a feed holds after a refresh

A refresh writes in batches and purges by the stamps. The documents it wrote carry its own stamp, so
that the purge takes none of them. It takes the others of the feed whose stamp is before its own: a
clock that stands still or steps back keeps what was delisted.
-/

namespace Spoo

open Mongo Mongo.Collection FeedDomainRepository

variable {lib : UrlLib} {server : ServerOrder} {store : FeedStore} {feed : String}

/-! ## The loop -/

theorem key_inj {a b : String} (h : key feed a = key feed b) : a = b := by
  have hchars := congrArg String.toList h
  simp only [key, String.toList_append, List.append_cancel_left_eq] at hchars
  exact String.toList_injective hchars

/-- The upserts of one refresh. -/
def upserts (feed : String) (now : Int) (domains : List String) : List UpdateOne :=
  domains.map fun domain => ⟨feed, domain, now⟩

theorem onePerId_upserts (feed : String) (now : Int) (domains : List String) :
    OnePerId ((upserts feed now domains).map UpdateOne.doc) := by
  intro d hd e he hid
  simp only [upserts, List.map_map, List.mem_map, Function.comp_apply] at hd he
  obtain ⟨a, -, rfl⟩ := hd
  obtain ⟨b, -, rfl⟩ := he
  have hsame : a = b := key_inj hid
  rw [hsame]

theorem onePerId_of_subset {ds es : List FeedDomainDoc} (h : OnePerId es) (hsub : ∀ d ∈ ds, d ∈ es) :
    OnePerId ds :=
  fun d hd e he hid => h d (hsub d hd) e (hsub e he) hid

theorem overlaid_run (c : FeedStore) (op : UpdateOne) : Overlaid c (UpdateOne.run c op) [op.doc] := by
  apply overlaid_upsertOne
  · intro d e h
    exact h
  · intro d hid
    have hd : d.id = key op.feed op.domain := hid
    simp [UpdateOne.set, UpdateOne.doc, hd]

/-- The order of a bulk write does not matter where its documents are one an `_id`. -/
theorem overlaid_bulkWrite (c : FeedStore) {ops : List UpdateOne} (hone : OnePerId (ops.map UpdateOne.doc)) :
    Overlaid c (bulkWrite server c ops) (ops.map UpdateOne.doc) := by
  have hperm := (server.perm ops).map UpdateOne.doc
  refine (Overlaid.foldl overlaid_run ?_ c).of_perm hperm
  exact onePerId_of_subset hone fun d hd => hperm.mem_iff.1 hd

/-- The normal forms of a list of raw domains. -/
def listed (lib : UrlLib) (raws : List String) : List String :=
  (raws.map (normalise lib)).filter (· ≠ "")

/-- Between two turns of the loop, with the domains taken so far. -/
structure SyncedTo (before : FeedStore) (feed : String) (existing : List String) (now : Int)
    (domains : List String) (s : Sync) : Prop where
  written : ∃ ops, ops ++ s.batch = upserts feed now domains ∧ Overlaid before s.store (ops.map UpdateOne.doc)
  kept : s.kept = domains.length
  newDomains : ∀ domain, domain ∈ s.newDomains ↔ domain ∈ domains ∧ domain ∉ existing

section

variable {existing domains : List String} {now : Int} {s : Sync}

/-- What is pending is written, in whichever order. -/
theorem SyncedTo.flush (h : SyncedTo store feed existing now domains s) :
    Overlaid store (bulkWrite server s.store s.batch) ((upserts feed now domains).map UpdateOne.doc) := by
  obtain ⟨ops, hops, hover⟩ := h.written
  have hone := onePerId_upserts feed now domains
  rw [← hops, List.map_append] at hone ⊢
  refine hover.trans (overlaid_bulkWrite s.store ?_) hone
  exact onePerId_of_subset hone fun d hd => List.mem_append_right _ hd

theorem SyncedTo.step (h : SyncedTo store feed existing now domains s) (raw : String) :
    SyncedTo store feed existing now (domains ++ listed lib [raw])
      (syncStep lib server feed existing now s raw) := by
  by_cases hempty : normalise lib raw = ""
  · simpa [syncStep, listed, hempty] using h
  · have hlisted : listed lib [raw] = [normalise lib raw] := by simp [listed, hempty]
    have hnew : ∀ domain,
        domain ∈ (if normalise lib raw ∈ existing then s.newDomains
          else s.newDomains.insert (normalise lib raw)) ↔
          domain ∈ domains ++ [normalise lib raw] ∧ domain ∉ existing := by
      intro domain
      split
      · rename_i hold
        rw [h.newDomains, List.mem_append, List.mem_singleton]
        constructor
        · exact fun ⟨hmem, hnot⟩ => ⟨.inl hmem, hnot⟩
        · rintro ⟨hmem | rfl, hnot⟩
          · exact ⟨hmem, hnot⟩
          · exact absurd hold hnot
      · rename_i hfresh
        rw [List.mem_insert_iff, h.newDomains, List.mem_append, List.mem_singleton]
        constructor
        · rintro (rfl | ⟨hmem, hnot⟩)
          · exact ⟨.inr rfl, hfresh⟩
          · exact ⟨.inl hmem, hnot⟩
        · rintro ⟨hmem | rfl, hnot⟩
          · exact .inr ⟨hmem, hnot⟩
          · exact .inl rfl
    -- The loop state with one more upsert pending.
    have hnext : SyncedTo store feed existing now (domains ++ [normalise lib raw])
        { store := s.store, kept := s.kept + 1,
          newDomains := if normalise lib raw ∈ existing then s.newDomains
            else s.newDomains.insert (normalise lib raw),
          batch := s.batch ++ [⟨feed, normalise lib raw, now⟩] } := by
      obtain ⟨ops, hops, hover⟩ := h.written
      refine ⟨⟨ops, ?_, hover⟩, ?_, hnew⟩
      · simp [← List.append_assoc, hops, upserts]
      · simp [h.kept]
    rw [hlisted]
    simp only [syncStep, if_neg hempty]
    split
    · exact ⟨⟨upserts feed now (domains ++ [normalise lib raw]), List.append_nil _, hnext.flush⟩,
        hnext.kept, hnew⟩
    · exact hnext

theorem SyncedTo.foldl (raws : List String) :
    ∀ {domains s}, SyncedTo store feed existing now domains s →
      SyncedTo store feed existing now (domains ++ listed lib raws)
        (raws.foldl (syncStep lib server feed existing now) s) := by
  induction raws with
  | nil =>
    intro domains s h
    simpa [listed] using h
  | cons raw raws ih =>
    intro domains s h
    have hsplit : listed lib (raw :: raws) = listed lib [raw] ++ listed lib raws := by
      simp [listed, List.filter_cons]
      split <;> simp
    rw [hsplit, ← List.append_assoc]
    exact ih (h.step raw)

end

/-! ## The refresh -/

/-- A document is stored under the key of `domain` that the purge of a refresh at `clock` leaves. -/
def lingers (store : FeedStore) (feed : String) (clock : Int) (domain : String) : Bool :=
  (store.lookup (key feed domain)).any fun doc => !(staleFilter feed (BsonDate.encode clock).ms).Matches doc

/-- A document of the feed has this domain. -/
def StoredIn (store : FeedStore) (feed domain : String) : Prop :=
  ∃ doc ∈ store.docs, doc.feed = .value feed ∧ doc.domain = .value domain

theorem mem_distinctDomains {domain : String} :
    domain ∈ distinctDomains store feed ↔ StoredIn store feed domain := by
  simp only [distinctDomains, feedFilter, Collection.find, List.mem_dedup, List.mem_filterMap, List.mem_filter,
    Query.matches_single, Query.field, DocField.is, decide_eq_true_eq, StoredIn, and_assoc]
  refine exists_congr fun doc => and_congr_right fun _ => and_congr_right fun _ => ?_
  cases doc.domain <;> simp [DocField.toOption]

theorem matches_staleFilter (feed : String) (now : Int) (doc : FeedDomainDoc) :
    (staleFilter feed now).Matches doc = (doc.feed.is feed && doc.syncedAt.lt now) :=
  Query.matches_pair (by simp [Query.field])

/-- The purge leaves what the refresh wrote. -/
theorem not_matches_staleFilter_doc (feed : String) (now : Int) (domain : String) :
    (staleFilter feed now).Matches (UpdateOne.doc ⟨feed, domain, now⟩) = false := by
  simp [matches_staleFilter, UpdateOne.doc, DocField.lt]

section

variable {raws : List String} {clock : Int}

/-- The loop of `replace_feed` from its start. -/
theorem syncedTo_replaceFeed (lib : UrlLib) (server : ServerOrder) (store : FeedStore) (feed : String)
    (existing raws : List String) (now : Int) :
    SyncedTo store feed existing now (listed lib raws)
      (raws.foldl (syncStep lib server feed existing now) { store }) := by
  have hstart : SyncedTo store feed existing now [] { store } :=
    ⟨⟨[], rfl, Overlaid.refl store⟩, rfl, by simp⟩
  exact hstart.foldl raws

theorem replaceFeed_of_unusable (h : listed lib raws = []) :
    replaceFeed lib server store feed raws clock = (⟨0, 0, []⟩, store) := by
  have hskip : ∀ (s : Sync) (existing : List String) (now : Int),
      raws.foldl (syncStep lib server feed existing now) s = s := by
    intro s existing now
    have hempty : ∀ raw ∈ raws, normalise lib raw = "" := by
      simpa [listed, List.filter_eq_nil_iff] using h
    clear h
    induction raws with
    | nil => rfl
    | cons raw raws ih =>
      rw [List.foldl_cons, syncStep, if_pos (hempty raw List.mem_cons_self)]
      exact ih fun raw' hraw => hempty raw' (List.mem_cons_of_mem _ hraw)
  simp [replaceFeed, hskip]

/-- What a refresh writes, and what it then deletes. -/
theorem exists_replaceFeed (server : ServerOrder) (store : FeedStore) (feed : String) (clock : Int)
    (h : listed lib raws ≠ []) :
    ∃ written,
      Overlaid store written
        ((upserts feed (BsonDate.encode clock).ms (listed lib raws)).map UpdateOne.doc) ∧
      (replaceFeed lib server store feed raws clock).2 =
        written.deleteMany (staleFilter feed (BsonDate.encode clock).ms).Matches ∧
      ∀ domain, domain ∈ (replaceFeed lib server store feed raws clock).1.newDomains ↔
        domain ∈ listed lib raws ∧ ¬StoredIn store feed domain := by
  have hs := syncedTo_replaceFeed lib server store feed (distinctDomains store feed) raws
    (BsonDate.encode clock).ms
  simp only [replaceFeed]
  generalize raws.foldl (syncStep lib server feed (distinctDomains store feed) (BsonDate.encode clock).ms)
    { store } = s at hs ⊢
  have hkept : s.kept ≠ 0 := by
    rw [hs.kept]
    exact fun hlen => h (List.length_eq_zero_iff.1 hlen)
  rw [if_neg hkept]
  refine ⟨if s.batch = [] then s.store else bulkWrite server s.store s.batch, ?_, rfl, ?_⟩
  · split
    · rename_i hbatch
      obtain ⟨ops, hops, hover⟩ := hs.written
      rw [← hops, hbatch, List.append_nil]
      exact hover
    · exact hs.flush
  · intro domain
    rw [← mem_distinctDomains]
    exact hs.newDomains domain

/-- What is found after a refresh was listed, or lingers. -/
theorem contains_replaceFeed (server : ServerOrder) (store : FeedStore) (feed : String) (clock : Int)
    (h : listed lib raws ≠ []) (domain : String) :
    contains lib (replaceFeed lib server store feed raws clock).2 feed domain = true ↔
      probe lib domain ∈ listed lib raws ∨ lingers store feed clock (probe lib domain) = true := by
  obtain ⟨written, hover, hstore, -⟩ := exists_replaceFeed server store feed clock h
  rw [contains, hstore, lookup_deleteMany]
  by_cases hlisted : probe lib domain ∈ listed lib raws
  · have hdoc := hover.fresh _ (List.mem_map_of_mem (List.mem_map_of_mem hlisted))
    have hfound : written.lookup (key feed (probe lib domain)) =
        some (UpdateOne.doc ⟨feed, probe lib domain, (BsonDate.encode clock).ms⟩) := hdoc
    simp [hfound, hlisted, not_matches_staleFilter_doc]
  · have hother : ∀ d ∈ (upserts feed (BsonDate.encode clock).ms (listed lib raws)).map UpdateOne.doc,
        Document.id d ≠ key feed (probe lib domain) := by
      intro d hd hid
      simp only [upserts, List.map_map, List.mem_map, Function.comp_apply] at hd
      obtain ⟨a, ha, rfl⟩ := hd
      have hsame : a = probe lib domain := key_inj hid
      exact hlisted (hsame ▸ ha)
    rw [hover.kept _ hother, lingers]
    simp only [hlisted, false_or]
    cases store.lookup (key feed (probe lib domain)) <;> simp [Option.filter]

/-- A refresh of `feed` swaps it, as far as the probed domain `d` is concerned. -/
def SwapsAt (lib : UrlLib) (server : ServerOrder) (store : FeedStore) (feed : String) (raws : List String)
    (clock : Int) (d : String) : Prop :=
  let after := replaceFeed lib server store feed raws clock
  if listed lib raws = [] then after.2 = store
  else (contains lib after.2 feed d = true ↔ normalise lib d ∈ listed lib raws) ∧
    ∀ domain, domain ∈ after.1.newDomains ↔ domain ∈ listed lib raws ∧ ¬StoredIn store feed domain

/-- A usable refresh swaps the feed at the domains that are found exactly if they are listed. -/
theorem swapsAt_iff (husable : listed lib raws ≠ []) (d : String) :
    SwapsAt lib server store feed raws clock d ↔
      (normalise lib d ∈ listed lib raws ↔
        probe lib d ∈ listed lib raws ∨ lingers store feed clock (probe lib d) = true) := by
  obtain ⟨-, -, -, hnew⟩ := exists_replaceFeed server store feed clock husable
  rw [SwapsAt, if_neg husable, contains_replaceFeed server store feed clock husable]
  exact (and_iff_left hnew).trans Iff.comm

theorem probe_of_trimmed {d : String} (h : pyStrip d = d) : probe lib d = normalise lib d := by
  rw [normalise, h, probe]

/-- A refresh swaps the feed for a domain without surrounding blanks exactly when the domain is listed
or no document under its key lingers. A domain with blanks is looked up with them. -/
theorem replaceFeed_swapsAt_iff (lib : UrlLib) (server : ServerOrder) (store : FeedStore) (feed : String)
    (raws : List String) (clock : Int) (d : String) :
    SwapsAt lib server store feed raws clock d ↔
      listed lib raws = [] ∨
        if pyStrip d = d then
          normalise lib d ∈ listed lib raws ∨ lingers store feed clock (normalise lib d) = false
        else
          (normalise lib d ∈ listed lib raws ↔
            probe lib d ∈ listed lib raws ∨ lingers store feed clock (probe lib d) = true) := by
  by_cases husable : listed lib raws = []
  · simp [SwapsAt, husable, replaceFeed_of_unusable husable]
  · rw [swapsAt_iff husable, or_iff_right husable]
    split
    · rename_i htrimmed
      rw [probe_of_trimmed htrimmed]
      by_cases hlisted : normalise lib d ∈ listed lib raws <;> simp [hlisted]
    · exact Iff.rfl

/-- A server that takes the operations in order. -/
def inOrder : ServerOrder := ⟨id, List.Perm.refl⟩

/-- Two refreshes within one millisecond. -/
theorem delisted_found :
    ¬SwapsAt asciiUrlLib inOrder
        (replaceFeed asciiUrlLib inOrder empty "fishfish" ["old.example"] 5000100).2 "fishfish"
        ["evil.example"] 5000900 "old.example" ∧
      ¬SwapsAt asciiUrlLib inOrder empty "fishfish" ["evil.example"] 5000900 " evil.example" := by
  have husable : listed asciiUrlLib ["evil.example"] ≠ [] := by decide +kernel
  constructor
  · rw [swapsAt_iff husable]
    decide +kernel
  · rw [swapsAt_iff husable]
    decide +kernel

end

end Spoo
