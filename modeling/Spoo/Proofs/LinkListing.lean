import Mathlib.Data.List.Perm.Subperm
import Spoo.Proofs.StatusClause
import Spoo.Services.UrlService.Listing

/-!
# What a list of links holds

The clauses of a query do not get in each other's way, so that a list holds the links that meet every filter. Going
through its pages, each of them is met once, unless links with equal values come across a boundary between two pages.
-/

namespace Spoo

open Mongo Paging UrlService

/-! ## What a list is of -/

section

variable (lib : ListingLib) (tags : List TagDoc) (ownerId : ObjectId) (now : Int) (doc : ListedUrl)

/-- The link carries a tag of the owner with this name. -/
def CarriesTag (name : String) : Prop :=
  ∃ tag ∈ tags, tag.ownerId = ownerId ∧ tag.name = name ∧ tag.id ∈ doc.row.tagIds

/-- A link meets every filter. -/
structure UrlFilter.Accepts (f : UrlFilter) : Prop where
  status : ∀ status ∈ f.status, (UrlV2Doc.fromMongo doc.row).effectiveStatus now = status
  createdAfter : ∀ value ∈ f.createdAfter, value.truthy = true →
    ∀ bound ∈ parseDatetime lib.fromisoformat value, BsonDate.encode bound ≤ doc.createdAt
  createdBefore : ∀ value ∈ f.createdBefore, value.truthy = true →
    ∀ bound ∈ parseDatetime lib.fromisoformat value, doc.createdAt ≤ BsonDate.encode bound
  passwordSet : ∀ wanted ∈ f.passwordSet, doc.row.password.isSome = wanted
  maxClicksSet : ∀ wanted ∈ f.maxClicksSet, doc.row.maxClicks.isSome = wanted
  anyTag : f.tagsMatch = .any → f.tagIds ≠ none ∨ f.tagNames ≠ none →
    (∃ id ∈ f.tagIds.getD [], id ∈ doc.row.tagIds) ∨ ∃ name ∈ f.tagNames.getD [], CarriesTag tags ownerId doc name
  allTags : f.tagsMatch = .all →
    (∀ id ∈ f.tagIds.getD [], id ∈ doc.row.tagIds) ∧ ∀ name ∈ f.tagNames.getD [], CarriesTag tags ownerId doc name
  search : ∀ text ∈ f.search, text ≠ "" →
    lib.searches text doc.row.linkAlias = true ∨ lib.searches text doc.row.longUrl = true

/-- A link belongs on a list. -/
structure OnList (query : ListUrlsQuery) : Prop where
  owner : doc.row.ownerId = ownerId
  domain : ∀ domain ∈ query.domain, domain ≠ "" → doc.row.domain = domain
  accepted : ∀ f ∈ query.parsedFilter, f.Accepts lib tags ownerId now doc

end

/-! ## One entry -/

section

variable {lib : ListingLib} {doc : ListedUrl} {f : UrlFilter}

/-- An entry that is not there asks for nothing. -/
abbrev Passes (entry : Option (Key ListField × (ListedUrl → Bool))) (doc : ListedUrl) : Prop :=
  entry.toList.all (·.2 doc) = true

theorem passes_createdAtEntry : Passes (createdAtEntry lib f) doc ↔
    (∀ value ∈ f.createdAfter, value.truthy = true →
      ∀ bound ∈ parseDatetime lib.fromisoformat value, BsonDate.encode bound ≤ doc.createdAt) ∧
    ∀ value ∈ f.createdBefore, value.truthy = true →
      ∀ bound ∈ parseDatetime lib.fromisoformat value, doc.createdAt ≤ BsonDate.encode bound := by
  have hbound (value : Option DateValue) (p : Int → Bool) :
      ((value.filter DateValue.truthy).bind (parseDatetime lib.fromisoformat)).all p = true ↔
        ∀ v ∈ value, v.truthy = true → ∀ bound ∈ parseDatetime lib.fromisoformat v, p bound = true := by
    cases value with
    | none => simp
    | some v => cases htruthy : v.truthy <;> simp [Option.filter, htruthy, Option.all_eq_true]
  have hafter := hbound f.createdAfter fun bound => decide (BsonDate.encode bound ≤ doc.createdAt)
  have hbefore := hbound f.createdBefore fun bound => decide (doc.createdAt ≤ BsonDate.encode bound)
  simp only [decide_eq_true_eq] at hafter hbefore
  rw [← hafter, ← hbefore, ← Bool.and_eq_true]
  unfold Passes createdAtEntry
  dsimp only
  split
  · simp only [Option.toList_some, List.all_cons, List.all_nil, Query.field, Bool.and_true]
  · rename_i hnone
    rw [Bool.or_eq_true, not_or, Bool.not_eq_true, Bool.not_eq_true, Option.isSome_eq_false_iff,
      Option.isSome_eq_false_iff, Option.isNone_iff_eq_none, Option.isNone_iff_eq_none] at hnone
    rw [hnone.1, hnone.2]
    exact Iff.rfl

theorem passes_passwordEntry : Passes (passwordEntry f) doc ↔
    ∀ wanted ∈ f.passwordSet, doc.row.password.isSome = wanted := by
  unfold Passes passwordEntry
  cases f.passwordSet <;> simp [Query.field]

theorem passes_maxClicksEntry : Passes (maxClicksEntry f) doc ↔
    ∀ wanted ∈ f.maxClicksSet, doc.row.maxClicks.isSome = wanted := by
  have hstored : doc.maxClicks.isNotNull = doc.row.maxClicks.isSome := by
    rw [doc.maxClicks_row]
    cases doc.maxClicks <;> rfl
  unfold Passes maxClicksEntry
  cases f.maxClicksSet <;> simp [Query.field, hstored]

theorem passes_searchEntry : Passes (searchEntry lib f) doc ↔
    ∀ text ∈ f.search, text ≠ "" →
      lib.searches text doc.row.linkAlias = true ∨ lib.searches text doc.row.longUrl = true := by
  unfold Passes searchEntry
  cases f.search with
  | none => simp
  | some text => by_cases htext : text = "" <;>
      simp [Option.filter, htext, Query.or, Query.matches_single, Query.field]

theorem passes_statusEntries {status : UrlStatus} {now : Int} :
    (statusEntries status now).all (·.2 doc) = true ↔ (UrlV2Doc.fromMongo doc.row).effectiveStatus now = status := by
  rw [← matches_effectiveStatusClause_iff, Query.Matches, statusEntries, List.all_map]
  rfl

end

/-! ## Tags -/

section

variable {tags : TagStore} {ownerId : ObjectId} {doc : ListedUrl} {names : List String}

theorem mem_idsForNames {id : ObjectId} : id ∈ StatsService.idsForNames tags ownerId names ↔
    ∃ tag ∈ tags.docs, tag.ownerId = ownerId ∧ tag.name ∈ names ∧ tag.id = id := by
  simp [StatsService.idsForNames, Collection.find, and_assoc]

/-- There are as many tags as names just if each name has one. -/
theorem length_idsForNames_lt_iff (hnodup : names.Nodup) :
    (StatsService.idsForNames tags ownerId names).length < names.length ↔
      ¬ ∀ name ∈ names, ∃ tag ∈ tags.docs, tag.ownerId = ownerId ∧ tag.name = name := by
  let found := tags.find fun tag => tag.ownerId = ownerId && tag.name ∈ names
  have hfound {tag : TagDoc} : tag ∈ found ↔ tag ∈ tags.docs ∧ tag.ownerId = ownerId ∧ tag.name ∈ names := by
    simp [found, Collection.find]
  have hlength : (StatsService.idsForNames tags ownerId names).length = (found.map TagDoc.name).length := by
    simp [StatsService.idsForNames, found]
  -- Two tags of one owner have different names.
  have hkeys : (found.map fun tag => (tag.ownerId, tag.name)).Nodup :=
    tags.nodup_key.sublist (List.filter_sublist.map _)
  have hnames : (found.map TagDoc.name).Nodup := by
    refine List.Nodup.of_map (fun name => (ownerId, name)) ?_
    rw [List.map_map]
    have hsame : found.map ((fun name => (ownerId, name)) ∘ TagDoc.name) =
        found.map fun tag => (tag.ownerId, tag.name) :=
      List.map_congr_left fun tag htag => by rw [Function.comp_apply, (hfound.1 htag).2.1]
    rwa [hsame]
  have hsubset : found.map TagDoc.name ⊆ names := by
    intro name hname
    obtain ⟨tag, htag, rfl⟩ := List.mem_map.1 hname
    exact (hfound.1 htag).2.2
  rw [hlength, ← not_le, not_iff_not]
  constructor
  · intro hle name hname
    have hperm : (found.map TagDoc.name).Perm names := (hnames.subperm hsubset).perm_of_length_le hle
    obtain ⟨tag, htag, heq⟩ := List.mem_map.1 (hperm.mem_iff.2 hname)
    exact ⟨tag, (hfound.1 htag).1, (hfound.1 htag).2.1, heq⟩
  · intro hall
    refine (hnodup.subperm fun name hname => ?_).length_le
    obtain ⟨tag, htag, howner, rfl⟩ := hall name hname
    exact List.mem_map_of_mem (hfound.2 ⟨htag, howner, hname⟩)

/-- Tags of one owner that have the same name are one tag. -/
theorem carriesTag_iff {tag : TagDoc} (htag : tag ∈ tags.docs) :
    CarriesTag tags.docs tag.ownerId doc tag.name ↔ tag.id ∈ doc.row.tagIds := by
  refine ⟨?_, fun hcarries => ⟨tag, htag, rfl, rfl, hcarries⟩⟩
  rintro ⟨other, hother, howner, hname, hcarries⟩
  have hsame : other = tag :=
    List.inj_on_of_nodup_map tags.nodup_key hother htag (Prod.ext howner hname)
  exact hsame ▸ hcarries

theorem exists_idsForNames_iff : (∃ id ∈ StatsService.idsForNames tags ownerId names, id ∈ doc.row.tagIds) ↔
    ∃ name ∈ names, CarriesTag tags.docs ownerId doc name := by
  constructor
  · rintro ⟨id, hid, hcarries⟩
    obtain ⟨tag, htag, howner, hname, rfl⟩ := mem_idsForNames.1 hid
    exact ⟨tag.name, hname, tag, htag, howner, rfl, hcarries⟩
  · rintro ⟨name, hname, tag, htag, howner, rfl, hcarries⟩
    exact ⟨tag.id, mem_idsForNames.2 ⟨tag, htag, howner, hname, rfl⟩, hcarries⟩

/-- Where each name has a tag, a link has all of the tags just if it has one for each name. -/
theorem forall_idsForNames_iff (hall : ∀ name ∈ names, ∃ tag ∈ tags.docs, tag.ownerId = ownerId ∧ tag.name = name) :
    (∀ id ∈ StatsService.idsForNames tags ownerId names, id ∈ doc.row.tagIds) ↔
      ∀ name ∈ names, CarriesTag tags.docs ownerId doc name := by
  constructor
  · intro hcarries name hname
    obtain ⟨tag, htag, rfl, rfl⟩ := hall name hname
    exact (carriesTag_iff htag).2 (hcarries _ (mem_idsForNames.2 ⟨tag, htag, rfl, hname, rfl⟩))
  · intro hcarries id hid
    obtain ⟨tag, htag, rfl, hname, rfl⟩ := mem_idsForNames.1 hid
    exact (carriesTag_iff htag).1 (hcarries _ hname)

/-- The clause over the tags, where there is one. -/
theorem tagEntry_eq_ok {stored : Option TagStore} {f : UrlFilter}
    {entry : Option (Key ListField × (ListedUrl → Bool))} (h : tagEntry stored ownerId f = .ok entry) :
    (entry = none ∧ f.tagIds = none ∧ f.tagNames = none) ∨
      ∃ tags, (f.tagNames ≠ none → stored = some tags) ∧ (f.tagIds ≠ none ∨ f.tagNames ≠ none) ∧
        let named := StatsService.idsForNames tags ownerId (f.tagNames.getD [])
        let wanted := if f.tagsMatch = .all ∧ named.length < (f.tagNames.getD []).length then []
          else f.tagIds.getD [] ++ named.filter (· ∉ f.tagIds.getD [])
        entry = some (Query.field .tagIds fun doc =>
          if f.tagsMatch = .all then wanted ≠ [] && wanted.all (· ∈ doc.row.tagIds)
          else wanted.any (· ∈ doc.row.tagIds)) := by
  unfold tagEntry at h
  cases hnames : f.tagNames with
  | none =>
    cases hids : f.tagIds with
    | none =>
      simp only [hnames, hids, Option.isNone_none, Bool.and_self, if_true] at h
      exact .inl ⟨(Except.ok.inj h).symm, rfl, rfl⟩
    | some ids =>
      refine .inr ⟨.empty, fun hne => absurd rfl hne, .inl (by simp), ?_⟩
      simp [hnames, hids] at h
      cases h
      simp [StatsService.idsForNames, Collection.find]
  | some names =>
    cases stored with
    | none => simp [hnames] at h
    | some tags =>
      refine .inr ⟨tags, fun _ => rfl, .inr (by simp), ?_⟩
      simp [hnames] at h
      cases h
      simp

theorem passes_tagEntry {stored : Option TagStore} {f : UrlFilter}
    {entry : Option (Key ListField × (ListedUrl → Bool))} (h : tagEntry stored ownerId f = .ok entry) :
    Passes entry doc ↔
      (f.tagsMatch = .any → f.tagIds ≠ none ∨ f.tagNames ≠ none →
        (∃ id ∈ f.tagIds.getD [], id ∈ doc.row.tagIds) ∨
          ∃ name ∈ f.tagNames.getD [], CarriesTag ((stored.map (·.docs)).getD []) ownerId doc name) ∧
      (f.tagsMatch = .all → (∀ id ∈ f.tagIds.getD [], id ∈ doc.row.tagIds) ∧
        ∀ name ∈ f.tagNames.getD [], CarriesTag ((stored.map (·.docs)).getD []) ownerId doc name) := by
  rcases tagEntry_eq_ok h with ⟨rfl, hids, hnames⟩ | ⟨tags, hstored, hasked, hentry⟩
  · simp [hids, hnames]
  · have hcarries (name : String) (hname : name ∈ f.tagNames.getD []) :
        CarriesTag ((stored.map (·.docs)).getD []) ownerId doc name ↔ CarriesTag tags.docs ownerId doc name := by
      rw [hstored (by rintro hnone; simp [hnone] at hname)]
      rfl
    have hpass (p : ListedUrl → Bool) : Passes (some (Query.field .tagIds p)) doc ↔ p doc = true := by
      simp [Query.field]
    dsimp only at hentry
    rw [hentry, hpass]
    cases hmatch : f.tagsMatch with
    | any =>
      have hname : (∃ name ∈ f.tagNames.getD [], CarriesTag ((stored.map (·.docs)).getD []) ownerId doc name) ↔
          ∃ id ∈ StatsService.idsForNames tags ownerId (f.tagNames.getD []), id ∈ doc.row.tagIds := by
        rw [exists_idsForNames_iff]
        exact exists_congr fun name => and_congr_right (hcarries name)
      simp only [reduceCtorEq, false_and, if_false, List.any_eq_true, decide_eq_true_eq, List.mem_append,
        List.mem_filter, false_implies, and_true, forall_const, hasked, hname]
      constructor
      · rintro ⟨id, hid | ⟨hid, -⟩, hin⟩
        · exact .inl ⟨id, hid, hin⟩
        · exact .inr ⟨id, hid, hin⟩
      · rintro (⟨id, hid, hin⟩ | ⟨id, hid, hin⟩)
        · exact ⟨id, .inl hid, hin⟩
        · by_cases hgiven : id ∈ f.tagIds.getD []
          · exact ⟨id, .inl hgiven, hin⟩
          · exact ⟨id, .inr ⟨hid, hgiven⟩, hin⟩
    | all =>
      rw [forall₂_congr hcarries]
      simp only [true_and, if_true, reduceCtorEq, false_implies, forall_const]
      by_cases hunresolved : (StatsService.idsForNames tags ownerId (f.tagNames.getD [])).length <
          (f.tagNames.getD []).length
      · -- Nothing carries a tag of a name that no tag has.
        rw [if_pos hunresolved]
        refine iff_of_false (by simp) fun hall => (length_idsForNames_lt_iff f.tagNames_nodup).1 hunresolved ?_
        intro name hname
        obtain ⟨tag, htag, howner, hsame, -⟩ := hall.2 name hname
        exact ⟨tag, htag, howner, hsame⟩
      · have hresolved := not_not.1 (mt (length_idsForNames_lt_iff f.tagNames_nodup).2 hunresolved)
        rw [if_neg hunresolved, ← forall_idsForNames_iff hresolved]
        have hwanted : f.tagIds.getD [] ++ (StatsService.idsForNames tags ownerId (f.tagNames.getD [])).filter
            (· ∉ f.tagIds.getD []) ≠ [] := by
          intro hempty
          obtain ⟨hgiven, hfiltered⟩ := List.append_eq_nil_iff.1 hempty
          have hnamed : StatsService.idsForNames tags ownerId (f.tagNames.getD []) = [] := by
            simpa [hgiven] using hfiltered
          rw [hnamed, List.length_nil, Nat.not_lt, Nat.le_zero, List.length_eq_zero_iff] at hunresolved
          rcases hasked with hids | hnames
          · obtain ⟨ids, hids⟩ := Option.ne_none_iff_exists'.1 hids
            exact f.tagIds_ne (by simpa [hids] using hgiven)
          · obtain ⟨names, hnames⟩ := Option.ne_none_iff_exists'.1 hnames
            exact f.tagNames_ne (by simpa [hnames] using hunresolved)
        rw [Bool.and_eq_true, decide_eq_true_eq, and_iff_right hwanted, List.all_append, Bool.and_eq_true]
        simp only [List.all_eq_true, List.mem_filter, decide_eq_true_eq, and_imp]
        refine and_congr_right fun hgiven => ⟨fun h id hid => ?_, fun h id hid _ => h id hid⟩
        by_cases hmem : id ∈ f.tagIds.getD []
        · exact hgiven id hmem
        · exact h id hid hmem

end

/-! ## The whole query -/

section

variable {lib : ListingLib} {doc : ListedUrl} {fs : List (Key ListField × (ListedUrl → Bool))} {now : Int}

/-- The paths that the query is asked for by itself. -/
def ownPaths : List (Key ListField) :=
  [.field .ownerId, .field .domain, .field .createdAt, .field .password, .field .maxClicks]

theorem nodup_ownPaths : ownPaths.Nodup := by decide

/-- Clauses under paths of their own are met along with the fields, be it one or several. -/
theorem matches_withClauses {clauses : List (List (Key ListField × (ListedUrl → Bool)))}
    (hfs : (fs.map Prod.fst).Sublist ownPaths) (hclauses : ∀ clause ∈ clauses, (clause.map Prod.fst).Nodup ∧
      ∀ e ∈ clause, e.1 ∉ ownPaths) :
    (withClauses (PyDict.ofList fs) clauses).Matches doc =
      (fs.all (·.2 doc) && clauses.all fun clause => clause.all (·.2 doc)) := by
  have hnodup : (fs.map Prod.fst).Nodup := nodup_ownPaths.sublist hfs
  have hfields : Query.Matches (PyDict.ofList fs) doc = fs.all (·.2 doc) := Query.matches_ofList hnodup
  match clauses, hclauses with
  | [], _ => rw [withClauses, hfields, List.all_nil, Bool.and_true]
  | [clause], hclauses =>
    have hclause := hclauses clause List.mem_cons_self
    have hboth : (((PyDict.ofList fs).entries ++ clause).map Prod.fst).Nodup := by
      rw [PyDict.entries_ofList hnodup, List.map_append]
      refine List.nodup_append.2 ⟨hnodup, hclause.1, fun k hk k' hk' heq => ?_⟩
      obtain ⟨e, he, rfl⟩ := List.mem_map.1 hk'
      exact hclause.2 e he (heq ▸ hfs.subset hk)
    rw [withClauses, Query.matches_extend hboth, hfields, List.all_cons, List.all_nil, Bool.and_true]
  | clause :: clause' :: clauses, _ =>
    have hand : Key.and ∉ PyDict.keys (PyDict.ofList fs) := by
      rw [PyDict.keys, PyDict.entries_ofList hnodup]
      intro hmem
      exact absurd (hfs.subset hmem) (by decide)
    rw [withClauses]
    · rw [Query.matches_assign hand, hfields]
    all_goals simp

theorem statusKey_injective : Function.Injective statusKey := by
  intro k k' h
  cases k with
  | field f =>
    cases k' with
    | field f' =>
      cases f <;> cases f' <;> simp [statusKey, StatusField.path] at h ⊢
    | _ => simp [statusKey] at h
  | _ => cases k' <;> simp [statusKey] at h ⊢

/-- The status clause has paths of its own. -/
theorem nodup_statusEntries (status : UrlStatus) : ((statusEntries status now).map Prod.fst).Nodup ∧
    ∀ e ∈ statusEntries status now, e.1 ∉ ownPaths := by
  have hkeys : (statusEntries status now).map Prod.fst = (effectiveStatusClause status now).keys.map statusKey := by
    rw [statusEntries, PyDict.keys, List.map_map, List.map_map]
    rfl
  refine ⟨hkeys ▸ (effectiveStatusClause status now).nodup.map statusKey_injective, fun e he => ?_⟩
  have hmem : e.1 ∈ (effectiveStatusClause status now).keys.map statusKey := hkeys ▸ List.mem_map_of_mem he
  have hpaths : ∀ k ∈ (effectiveStatusClause status now).keys.map statusKey, k ∉ ownPaths := by
    cases status
    · exact (by decide : ∀ k ∈ [Key.field ListField.status, .nor], k ∉ ownPaths)
    · exact (by decide : ∀ k ∈ [Key.field ListField.status], k ∉ ownPaths)
    · exact (by decide : ∀ k ∈ [(Key.or : Key ListField)], k ∉ ownPaths)
    · exact (by decide : ∀ k ∈ [Key.field ListField.status], k ∉ ownPaths)
    · exact (by decide : ∀ k ∈ [Key.field ListField.status, .field .startsAt, .nor], k ∉ ownPaths)
  exact hpaths _ hmem

/-- An entry that may be there, under one path. -/
theorem sublist_toList {entry : Option (Key ListField × (ListedUrl → Bool))} {k : Key ListField}
    (h : ∀ e ∈ entry, e.1 = k) : (entry.toList.map Prod.fst).Sublist [k] := by
  cases entry with
  | none => exact List.nil_sublist _
  | some e => simp [h e rfl]

theorem all_scopeEntries {ownerId : ObjectId} {query : ListUrlsQuery} :
    (scopeEntries ownerId query).all (·.2 doc) = true ↔ doc.row.ownerId = ownerId ∧
      ∀ domain ∈ query.domain, domain ≠ "" → doc.row.domain = domain := by
  unfold scopeEntries
  cases query.domain with
  | none => simp [Query.field]
  | some domain => by_cases hdomain : domain = "" <;> simp [Option.filter, hdomain, Query.field]

theorem sublist_scopeEntries (ownerId : ObjectId) (query : ListUrlsQuery) :
    ((scopeEntries ownerId query).map Prod.fst).Sublist [.field .ownerId, .field .domain] := by
  refine List.Sublist.cons_cons _ (sublist_toList fun e he => ?_)
  obtain ⟨domain, -, rfl⟩ := Option.map_eq_some_iff.1 he
  rfl

theorem sublist_fieldEntries (lib : ListingLib) (f : UrlFilter) : ((fieldEntries lib f).map Prod.fst).Sublist
    [.field .createdAt, .field .password, .field .maxClicks] := by
  have hcreated : ((createdAtEntry lib f).toList.map Prod.fst).Sublist [.field .createdAt] := by
    refine sublist_toList fun e he => ?_
    unfold createdAtEntry at he
    dsimp only at he
    split at he
    · cases he
      rfl
    · cases he
  have hpassword : ((passwordEntry f).toList.map Prod.fst).Sublist [.field .password] := by
    refine sublist_toList fun e he => ?_
    obtain ⟨wanted, -, rfl⟩ := Option.map_eq_some_iff.1 he
    rfl
  have hmax : ((maxClicksEntry f).toList.map Prod.fst).Sublist [.field .maxClicks] := by
    refine sublist_toList fun e he => ?_
    obtain ⟨wanted, -, rfl⟩ := Option.map_eq_some_iff.1 he
    rfl
  rw [fieldEntries, List.map_append, List.map_append]
  exact (hcreated.append hpassword).append hmax

/-- Each clause has paths of its own. -/
theorem clauses_apart {stored : Option TagStore} {ownerId : ObjectId} {f : UrlFilter}
    {entry : Option (Key ListField × (ListedUrl → Bool))} (h : tagEntry stored ownerId f = .ok entry) :
    ∀ clause ∈ (f.status.map (statusEntries · now)).toList ++ (entry.map ([·])).toList ++
        ((searchEntry lib f).map ([·])).toList,
      (clause.map Prod.fst).Nodup ∧ ∀ e ∈ clause, e.1 ∉ ownPaths := by
  intro clause hclause
  simp only [List.mem_append, Option.mem_toList, Option.map_eq_some_iff] at hclause
  have hsingle {e : Key ListField × (ListedUrl → Bool)} (he : e.1 ∉ ownPaths) :
      ([e].map Prod.fst).Nodup ∧ ∀ e' ∈ [e], e'.1 ∉ ownPaths :=
    ⟨List.nodup_singleton _, fun e' he' => List.mem_singleton.1 he' ▸ he⟩
  rcases hclause with (⟨status, -, rfl⟩ | ⟨e, he, rfl⟩) | ⟨e, he, rfl⟩
  · exact nodup_statusEntries status
  · rcases tagEntry_eq_ok h with ⟨rfl, -⟩ | ⟨tags, -, -, hentry⟩
    · cases he
    · rw [he] at hentry
      cases hentry
      have hpath : Key.field ListField.tagIds ∉ ownPaths := by decide
      exact hsingle hpath
  · obtain ⟨text, -, rfl⟩ := Option.map_eq_some_iff.1 he
    have hpath : (Key.or : Key ListField) ∉ ownPaths := by decide
    exact hsingle hpath

/-- The links on a list are those that meet every filter, however the clauses are put together. -/
theorem listQuery_matches_iff {stored : Option TagStore} {ownerId : ObjectId} {query : ListUrlsQuery} {q : ListQuery}
    (h : listQuery lib stored ownerId query now = .ok q) (doc : ListedUrl) :
    q.Matches doc = true ↔ OnList lib ((stored.map (·.docs)).getD []) ownerId now doc query := by
  have hscope := sublist_scopeEntries ownerId query
  unfold listQuery at h
  cases hfilter : query.parsedFilter with
  | none =>
    rw [hfilter] at h
    cases h
    have hnodup : ((scopeEntries ownerId query).map Prod.fst).Nodup := List.Nodup.sublist hscope (by decide)
    rw [Query.matches_ofList hnodup, all_scopeEntries]
    exact ⟨fun hall => ⟨hall.1, hall.2, by simp [hfilter]⟩, fun hlist => ⟨hlist.owner, hlist.domain⟩⟩
  | some f =>
    rw [hfilter] at h
    cases htag : tagEntry stored ownerId f with
    | error e => simp [htag, bind, Except.bind] at h
    | ok entry =>
      simp only [htag, bind, Except.bind, pure, Except.pure, Except.ok.injEq] at h
      have hkeys : ((scopeEntries ownerId query ++ fieldEntries lib f).map Prod.fst).Sublist ownPaths := by
        rw [List.map_append]
        exact hscope.append (sublist_fieldEntries lib f)
      have hstatus : ((f.status.map (statusEntries · now)).toList.all fun clause => clause.all (·.2 doc)) = true ↔
          ∀ status ∈ f.status, (UrlV2Doc.fromMongo doc.row).effectiveStatus now = status := by
        cases f.status with
        | none => simp
        | some status => simp only [Option.map_some, Option.toList_some, List.all_cons, List.all_nil, Bool.and_true,
            passes_statusEntries, Option.mem_some, forall_eq']
      have hclause (e : Option (Key ListField × (ListedUrl → Bool))) :
          ((e.map ([·])).toList.all fun clause => clause.all (·.2 doc)) = true ↔ Passes e doc := by
        cases e <;> simp [Passes]
      have hfields : (fieldEntries lib f).all (·.2 doc) = true ↔
          (Passes (createdAtEntry lib f) doc ∧ Passes (passwordEntry f) doc) ∧ Passes (maxClicksEntry f) doc := by
        rw [fieldEntries, List.all_append, List.all_append, Bool.and_eq_true, Bool.and_eq_true]
      rw [← h, matches_withClauses hkeys (clauses_apart htag)]
      simp only [List.all_append, Bool.and_eq_true, all_scopeEntries, hfields, hstatus, hclause, passes_createdAtEntry,
        passes_passwordEntry, passes_maxClicksEntry, passes_tagEntry htag, passes_searchEntry]
      constructor
      · rintro ⟨⟨⟨howner, hdomain⟩, ⟨⟨hafter, hbefore⟩, hpassword⟩, hmax⟩, ⟨hstatus, hany, hall⟩, hsearch⟩
        refine ⟨howner, hdomain, fun f' hf' => ?_⟩
        obtain rfl := Option.some.inj (hfilter.symm.trans hf')
        exact ⟨hstatus, hafter, hbefore, hpassword, hmax, hany, hall, hsearch⟩
      · intro hlist
        have haccepts := hlist.accepted f hfilter
        exact ⟨⟨⟨hlist.owner, hlist.domain⟩, ⟨⟨haccepts.createdAfter, haccepts.createdBefore⟩, haccepts.passwordSet⟩,
          haccepts.maxClicksSet⟩, ⟨haccepts.status, haccepts.anyTag, haccepts.allTags⟩, haccepts.search⟩

end

/-- A link that nobody has clicked on. -/
def unclicked (id : ObjectId) (linkAlias : String) : ListedUrl where
  row := { id, linkAlias, ownerId := 1, domain := "spoo.me", longUrl := "https://example.com" }
  expireAfter := .missing
  maxClicks := .null
  startsAt := .missing
  expireAfter_row := rfl
  maxClicks_row := rfl
  startsAt_row := rfl
  persisted := by simp
  createdAt := ⟨id⟩

/-- ACTIVE links with a text in them that carry a tag: a link without the tag is not on the list. -/
theorem listQuery_matches_iff_clauses :
    let lib : ListingLib := ⟨fun _ => none, fun text searched => text = searched⟩
    let f : UrlFilter := { status := some .active, search := some "a", tagIds := some [7], tagIds_ne := by simp }
    let query : ListUrlsQuery := { parsedFilter := some f }
    ∃ q, listQuery lib none 1 query 0 = .ok q ∧ q.Matches (unclicked 1 "a") = false ∧
      ¬ OnList lib [] 1 0 (unclicked 1 "a") query := by
  intro lib f query
  have h : listQuery lib none 1 query 0 = .ok _ := rfl
  refine ⟨_, h, by decide, fun hlist => ?_⟩
  exact absurd ((listQuery_matches_iff h _).2 hlist) (by decide)

/-! ## The pages -/

section

variable {field : UrlSortField} {order : UrlSortOrder}

theorem total_bsonLE (a b : Option Int) : bsonLE a b ∨ bsonLE b a := by
  cases a <;> cases b <;> simp [bsonLE]
  omega

theorem trans_bsonLE {a b c : Option Int} (hab : bsonLE a b) (hbc : bsonLE b c) : bsonLE a c := by
  cases a <;> cases b <;> cases c <;> simp_all [bsonLE]
  omega

theorem total_sortsBefore (a b : ListedUrl) : SortsBefore field order a b ∨ SortsBefore field order b a := by
  unfold SortsBefore
  cases order.descends
  · exact total_bsonLE _ _
  · exact total_bsonLE _ _

theorem trans_sortsBefore {a b c : ListedUrl} (hab : SortsBefore field order a b) (hbc : SortsBefore field order b c) :
    SortsBefore field order a c := by
  unfold SortsBefore at *
  cases hdescends : order.descends <;> rw [hdescends] at hab hbc
  · exact trans_bsonLE hab hbc
  · exact trans_bsonLE hbc hab

instance : Std.Total (SortsBefore field order) := ⟨total_sortsBefore⟩

instance : IsTrans ListedUrl (SortsBefore field order) := ⟨fun _ _ _ => trans_sortsBefore⟩

end

section

variable {links : ListedUrlStore} {q : ListQuery} {query : ListUrlsQuery}

theorem nodup_find : (links.find q.Matches).Nodup :=
  (List.Nodup.of_map _ links.nodup_id).filter _

/-- Going on while there is a next page comes to all the pages. -/
theorem pages_append_listFrom (answers : Nat → SortedAnswer links q query.sortBy query.sortOrder) (fuel k : Nat) :
    pages query.pageSize (fun k => (answers (k + 1)).val) k ++ listFrom query answers fuel (k + 1) =
      pages query.pageSize (fun k => (answers (k + 1)).val) (k + fuel) := by
  induction fuel generalizing k with
  | zero => exact List.append_nil _
  | succ fuel ih =>
    have hlength (k : Nat) : (answers (k + 1)).val.length = (links.find q.Matches).length := (answers (k + 1)).2.length_eq
    have hitems : (listPage query (k + 1) (answers (k + 1))).items = page query.pageSize k (answers (k + 1)).val := rfl
    rw [listFrom, hitems, ← List.append_assoc, ← pages_succ query.pageSize (fun k => (answers (k + 1)).val)]
    cases hnext : (listPage query (k + 1) (answers (k + 1))).hasNext with
    | true =>
      rw [if_pos rfl, ih, Nat.succ_add_eq_add_succ]
    | false =>
      -- The page is the last one, as it is not full or there is nothing behind it.
      have hlast : (links.find q.Matches).length ≤ (k + 1) * query.pageSize := by
        simp only [listPage, UrlRepository.countByQuery, UrlRepository.findByOwner, Nat.add_sub_cancel, List.length_take,
          List.length_drop, hlength, decide_eq_false_iff_not, not_lt] at hnext
        rw [Nat.succ_mul]
        omega
      have hcount : k + (fuel + 1) = k + 1 + fuel := by omega
      rw [if_neg Bool.false_ne_true, List.append_nil, hcount]
      exact (pages_add (fun k => (hlength k).trans_le hlast) fuel).symm

/-- However ties come in each answer, going through the pages meets each link of the list once, just if no tie goes
across a boundary between two pages. -/
theorem listFrom_perm_iff (links : ListedUrlStore) (q : ListQuery) (query : ListUrlsQuery) {fuel : Nat}
    (hfuel : (links.find q.Matches).length ≤ fuel) :
    (∀ answers : Nat → SortedAnswer links q query.sortBy query.sortOrder,
        (listFrom query answers fuel 1).Perm (links.find q.Matches)) ↔
      ∀ doc ∈ links.find q.Matches, ∀ k,
        ¬ Straddles (SortsBefore query.sortBy query.sortOrder) (links.find q.Matches) doc (k * query.pageSize) := by
  have hcount : (links.find q.Matches).length ≤ fuel * query.pageSize :=
    hfuel.trans (Nat.le_mul_of_pos_right fuel query.pageSize_bounds.1)
  have hpages (answers : Nat → SortedAnswer links q query.sortBy query.sortOrder) :
      listFrom query answers fuel 1 = pages query.pageSize (fun k => (answers (k + 1)).val) fuel := by
    have hall := pages_append_listFrom answers fuel 0
    rwa [Nat.zero_add, Nat.zero_add] at hall
  rw [← forall_pages_perm_iff nodup_find query.pageSize_bounds.1 hcount]
  constructor
  · intro hall answers hanswers
    have hperm := hall fun page => ⟨answers (page - 1), hanswers (page - 1)⟩
    rwa [hpages] at hperm
  · intro hall answers
    rw [hpages]
    exact hall _ fun k => (answers (k + 1)).2

/-- Two links that nobody has clicked on. -/
def unclickedLinks : ListedUrlStore := ⟨[unclicked 1 "a", unclicked 2 "b"], by decide, by decide⟩

/-- Sorted by their clicks, one a page: one of the two links may be met twice, and the other one never. -/
theorem listFrom_perm_iff_unclicked :
    let everything : ListQuery := .empty
    let query : ListUrlsQuery :=
      { pageSize := 1, sortBy := .totalClicks, page_bounds := Nat.le_refl 1,
        pageSize_bounds := ⟨Nat.le_refl 1, Nat.le_of_ble_eq_true rfl⟩ }
    ¬ ∀ answers : Nat → SortedAnswer unclickedLinks everything query.sortBy query.sortOrder,
        (listFrom query answers 2 1).Perm (unclickedLinks.find everything.Matches) := by
  intro everything query hall
  have hties := (listFrom_perm_iff unclickedLinks everything query (by decide)).1 hall
  exact hties (unclicked 1 "a") (by simp [unclickedLinks, everything, Collection.find, Query.Matches]) 1 (by decide)

end

end Spoo
