import Spoo.Services.StatsService

/-!
# Whose clicks the statistics are of

Each dimension has a path of its own in the filter document, so that no clause takes the place of another one. The
scope of a call is laid down before its filters, and stays whatever these are: the clicks under the caller's stamp and
those of the links that the caller has claimed, or the clicks of one link.
-/

namespace Spoo

open Mongo Fallible StatsService

/-! ## What a filter adds to a match stage -/

/-- The path of the clause for a dimension. -/
def StatsDimension.path : StatsDimension → String
  | .shortCode => "meta.short_code"
  | .urlId => "meta.url_id"
  | dimension => dimension.storedField

theorem StatsDimension.path_injective : Function.Injective StatsDimension.path :=
  injective_of_find fun dimension => by cases dimension <;> decide

/-- No filter has a clause on the owner or on the time of a click. -/
theorem StatsDimension.path_ne (dimension : StatsDimension) :
    dimension.path ≠ "meta.owner_id" ∧ dimension.path ≠ "clicked_at" := by
  cases dimension <;> decide

namespace ClickMatch

/-- The clicks that a stage selects: every clause and every group of alternatives lets them pass. -/
def Selects (m : ClickMatch) (click : ClickDoc) : Prop :=
  m.query.Matches click = true ∧ ∀ group ∈ m.orGroups, ∃ q ∈ group, Query.Matches q click = true

/-- No clause is under an operator. -/
def OnFields (m : ClickMatch) : Prop := ∀ k ∈ m.query.keys, ∃ path, k = .field path

/-- A filter finds its path free, or is the one that gives way. -/
def FreeFor (m : ClickMatch) (dimension : StatsDimension) : Prop :=
  dimension = .urlId ∨ .field dimension.path ∉ m.query.keys

end ClickMatch

namespace StatsService

variable {m m' : ClickMatch} {dimension : StatsDimension} {values : List String} {click : ClickDoc}

/-! ## One filter -/

/-- What a turn of the loop does. -/
inductive Filtered (m : ClickMatch) (dimension : StatsDimension) : ClickMatch → Prop where
  | kept : Filtered m dimension m
  | clause (test : ClickDoc → Bool) (hfree : .field dimension.path ∉ m.query.keys) :
      Filtered m dimension (set m (Query.field dimension.path test))
  | alternatives (group : List ClickQuery) :
      Filtered m dimension { m with orGroups := m.orGroups ++ [group] }

theorem path_eq_storedField (hcode : dimension ≠ .shortCode) (hurl : dimension ≠ .urlId) :
    dimension.path = dimension.storedField := by
  cases dimension with
  | shortCode => exact absurd rfl hcode
  | urlId => exact absurd rfl hurl
  | _ => rfl

theorem filtered_applyFilter (hfree : m.FreeFor dimension)
    (h : applyFilter m (dimension, values) = .ok m') : Filtered m dimension m' := by
  have hpath (hurl : dimension ≠ .urlId) : .field dimension.path ∉ m.query.keys := hfree.resolve_left hurl
  simp only [applyFilter] at h
  split at h
  · cases h
    exact .kept
  · split at h
    · rename_i hcode
      subst hcode
      cases h
      exact .clause _ (hpath (by decide))
    · rename_i hcode
      split at h
      · rename_i hurl
        subst hurl
        split at h
        · cases h
          exact .kept
        · rename_i hunlocked
          obtain ⟨ids, -, hset⟩ := Fallible.bind_eq_ok.1 h
          cases hset
          exact .clause _ hunlocked
      · rename_i hurl
        obtain ⟨stored, -, hset⟩ := Fallible.bind_eq_ok.1 h
        split at hset
        · cases hset
          exact .alternatives _
        · cases hset
          have hfield := path_eq_storedField hcode hurl
          have hclause := Filtered.clause (fun click => (click.field dimension).isIn stored) (hpath hurl)
          rw [hfield] at hclause
          exact hclause

theorem keys_set (clause : Key String × (ClickDoc → Bool)) {k : Key String} :
    k ∈ (set m clause).query.keys ↔ k ∈ m.query.keys ∨ k = clause.1 := PyDict.mem_keys_assign

/-- A clause under a free path is one more test. -/
theorem selects_set {clause : Key String × (ClickDoc → Bool)} (hfree : clause.1 ∉ m.query.keys) :
    (set m clause).Selects click ↔ m.Selects click ∧ clause.2 click = true := by
  simp only [ClickMatch.Selects, set, Query.matches_assign hfree, Bool.and_eq_true]
  exact and_right_comm

/-- So is a group of alternatives. -/
theorem selects_alternatives {group : List ClickQuery} :
    ({ m with orGroups := m.orGroups ++ [group] } : ClickMatch).Selects click ↔
      m.Selects click ∧ ∃ q ∈ group, Query.Matches q click = true := by
  simp only [ClickMatch.Selects, List.mem_append, List.mem_singleton, or_imp, forall_and, forall_eq,
    and_assoc]

namespace Filtered

/-- A filter selects among what was selected. -/
theorem selects (h : Filtered m dimension m') (hclick : m'.Selects click) : m.Selects click := by
  cases h with
  | kept => exact hclick
  | clause test hfree => exact ((selects_set hfree).1 hclick).1
  | alternatives group => exact (selects_alternatives.1 hclick).1

/-- A filter takes no path but its own. -/
theorem mem_keys (h : Filtered m dimension m') {k : Key String} (hk : k ∈ m'.query.keys) :
    k ∈ m.query.keys ∨ k = .field dimension.path := by
  cases h with
  | kept => exact .inl hk
  | clause test hfree => exact (keys_set _).1 hk
  | alternatives group => exact .inl hk

theorem onFields (h : Filtered m dimension m') (hm : m.OnFields) : m'.OnFields := by
  intro k hk
  rcases h.mem_keys hk with hk | rfl
  · exact hm k hk
  · exact ⟨_, rfl⟩

theorem freeFor (h : Filtered m dimension m') {other : StatsDimension} (hne : other ≠ dimension)
    (hfree : m.FreeFor other) : m'.FreeFor other := by
  refine hfree.imp_right fun hpath hk => ?_
  rcases h.mem_keys hk with hk | hk
  · exact hpath hk
  · exact hne (StatsDimension.path_injective (Key.field.inj hk))

end Filtered

/-! ## All of them -/

/-- What the filters leave of a stage: clauses on fields, no path taken but those of their dimensions,
and no click that was not selected before. -/
structure Narrowed (m : ClickMatch) (dimensions : List StatsDimension) (m' : ClickMatch) : Prop where
  onFields : m'.OnFields
  freeFor : ∀ other, other ∉ dimensions → m.FreeFor other → m'.FreeFor other
  selects : ∀ click, m'.Selects click → m.Selects click

theorem narrowed_foldlM : ∀ {entries : List (StatsDimension × List String)} {m m' : ClickMatch},
    m.OnFields → (entries.map Prod.fst).Nodup → (∀ e ∈ entries, m.FreeFor e.1) →
      entries.foldlM applyFilter m = .ok m' → Narrowed m (entries.map Prod.fst) m'
  | [], m, _, hfields, _, _, h => by
    cases h
    exact ⟨hfields, fun _ _ hfree => hfree, fun _ hclick => hclick⟩
  | (dimension, values) :: entries, m, m', hfields, hnodup, hfree, h => by
    rw [List.foldlM_cons] at h
    obtain ⟨next, hfirst, hrest⟩ := Fallible.bind_eq_ok.1 h
    rw [List.map_cons, List.nodup_cons] at hnodup
    have hstep := filtered_applyFilter (hfree _ List.mem_cons_self) hfirst
    have hothers : ∀ e ∈ entries, next.FreeFor e.1 := fun e he =>
      hstep.freeFor (fun heq => hnodup.1 (heq ▸ List.mem_map_of_mem he))
        (hfree e (List.mem_cons_of_mem _ he))
    have hrun := narrowed_foldlM (hstep.onFields hfields) hnodup.2 hothers hrest
    refine ⟨hrun.onFields, fun other hother hfree => ?_, fun click hclick => ?_⟩
    · rw [List.map_cons, List.mem_cons, not_or] at hother
      exact hrun.freeFor other hother.2 (hstep.freeFor hother.1 hfree)
    · exact hstep.selects (hrun.selects click hclick)

theorem narrowed_applyDimensionFilters {filters : StatsFilters} (hfields : m.OnFields)
    (hfree : ∀ dimension, m.FreeFor dimension) (h : applyDimensionFilters m filters = .ok m') :
    Narrowed m filters.keys m' :=
  narrowed_foldlM hfields filters.nodup (fun e _ => hfree e.1) h

/-- The groups go in under operators, where nothing was. -/
theorem matches_mergeOrGroups (h : m.OnFields) :
    (mergeOrGroups m).Matches click = true ↔ m.Selects click := by
  have hor : Key.or ∉ m.query.keys := fun hk => by obtain ⟨_, hpath⟩ := h _ hk; cases hpath
  have hand : Key.and ∉ m.query.keys := fun hk => by obtain ⟨_, hpath⟩ := h _ hk; cases hpath
  obtain ⟨query, groups⟩ := m
  match groups with
  | [] => simp [mergeOrGroups, ClickMatch.Selects]
  | [group] =>
    have hassign : mergeOrGroups ⟨query, [group]⟩ = query.assign .or (Query.or group).2 := rfl
    rw [hassign, Query.matches_assign hor]
    simp [ClickMatch.Selects, Query.or]
  | first :: second :: rest =>
    have hassign : mergeOrGroups ⟨query, first :: second :: rest⟩ = query.assign .and
        (Query.and ((first :: second :: rest).map fun group => PyDict.ofList [Query.or group])).2 := rfl
    rw [hassign, Query.matches_assign hand]
    simp [ClickMatch.Selects, Query.matches_single, Query.or, Query.and]

end StatsService

/-! ## Whose clicks -/

namespace StatsService

variable {m : ClickMatch} {ownerId urlId : ObjectId} {window : StatsWindow} {claimedUrlIds : List ObjectId}
  {click : ClickDoc} {filters : StatsFilters} {query : ClickQuery}

/-! ## The scopes -/

/-- A stage that no filter gets in the way of: no clause is under an operator, and every path is free. -/
structure IsScope (m : ClickMatch) : Prop where
  onFields : m.OnFields
  freeFor : ∀ dimension, m.FreeFor dimension

theorem IsScope.of_keys (h : ∀ k ∈ m.query.keys,
    k = .field "meta.owner_id" ∨ k = .field "meta.url_id" ∨ k = .field "clicked_at") : IsScope m where
  onFields k hk := by
    rcases h k hk with rfl | rfl | rfl
    · exact ⟨_, rfl⟩
    · exact ⟨_, rfl⟩
    · exact ⟨_, rfl⟩
  freeFor dimension := by
    by_cases hurl : dimension = .urlId
    · exact .inl hurl
    · refine .inr fun hk => ?_
      rcases h _ hk with hpath | hpath | hpath
      · exact dimension.path_ne.1 (Key.field.inj hpath)
      · exact hurl (StatsDimension.path_injective (Key.field.inj hpath))
      · exact dimension.path_ne.2 (Key.field.inj hpath)

theorem isScope_accountScope : IsScope (accountScope ownerId window claimedUrlIds) := by
  refine .of_keys fun k hk => ?_
  unfold accountScope at hk
  split at hk
  · have hkeys : k = .field "meta.owner_id" ∨ k = .field "clicked_at" := by
      simpa [ownerIs, clickedWithin, Query.field] using PyDict.mem_keys_ofList.1 hk
    exact hkeys.imp_right .inr
  · have hkeys : k = .field "clicked_at" := by
      simpa [clickedWithin, Query.field] using PyDict.mem_keys_ofList.1 hk
    exact .inr (.inr hkeys)

theorem isScope_linkScope : IsScope (linkScope urlId window) := by
  refine .of_keys fun k hk => .inr ?_
  simpa [clickedWithin, Query.field] using PyDict.mem_keys_ofList.1 hk

theorem clickedWithin_test : (clickedWithin window).2 click = true ↔
    window.startDate ≤ click.clickedAt ∧ click.clickedAt ≤ window.endDate := by
  simp [clickedWithin, Query.field]

theorem selects_accountScope : (accountScope ownerId window claimedUrlIds).Selects click ↔
    (click.ownerId = ownerId ∨ click.urlId ∈ claimedUrlIds) ∧
      window.startDate ≤ click.clickedAt ∧ click.clickedAt ≤ window.endDate := by
  have howner : (ownerIs ownerId).2 click = true ↔ click.ownerId = ownerId := decide_eq_true_iff
  have hclaimed : (urlIdIn claimedUrlIds).2 click = true ↔ click.urlId ∈ claimedUrlIds := decide_eq_true_iff
  unfold accountScope
  split
  · rename_i hnone
    subst hnone
    have hpaths : (clickedWithin window).1 ≠ (ownerIs ownerId).1 := by
      simp [clickedWithin, ownerIs, Query.field]
    simp [ClickMatch.Selects, Query.matches_pair hpaths, howner, clickedWithin_test]
  · have hquery : Query.Matches (PyDict.ofList [clickedWithin window]) click = true ↔
        window.startDate ≤ click.clickedAt ∧ click.clickedAt ≤ window.endDate := by
      rw [Query.matches_single, clickedWithin_test]
    have hgroup : (∃ q ∈ [PyDict.ofList [ownerIs ownerId], PyDict.ofList [urlIdIn claimedUrlIds]],
        Query.Matches q click = true) ↔ click.ownerId = ownerId ∨ click.urlId ∈ claimedUrlIds := by
      simp [Query.matches_single, howner, hclaimed]
    simp only [ClickMatch.Selects, List.mem_singleton, forall_eq, hquery, hgroup]
    exact and_comm

theorem selects_linkScope : (linkScope urlId window).Selects click ↔
    click.urlId = urlId ∧ window.startDate ≤ click.clickedAt ∧ click.clickedAt ≤ window.endDate := by
  let locked : Key String × (ClickDoc → Bool) := Query.field "meta.url_id" fun click => click.urlId = urlId
  have hpaths : (clickedWithin window).1 ≠ locked.1 := by simp [clickedWithin, locked, Query.field]
  have hlocked : locked.2 click = true ↔ click.urlId = urlId := decide_eq_true_iff
  have hquery : (linkScope urlId window).query.Matches click =
      (locked.2 click && (clickedWithin window).2 click) := Query.matches_pair hpaths
  have hgroups : (linkScope urlId window).orGroups = [] := rfl
  simp [ClickMatch.Selects, hquery, hgroups, hlocked, clickedWithin_test]

/-! ## The filters on top -/

theorem IsScope.selects (hscope : IsScope m) (h : buildMatch m filters = .ok query)
    (hclick : query.Matches click = true) : m.Selects click := by
  obtain ⟨m', hfilters, hmerge⟩ := bind_eq_ok.1 h
  cases hmerge
  have hnarrowed := narrowed_applyDimensionFilters hscope.onFields hscope.freeFor hfilters
  exact hnarrowed.selects click ((matches_mergeOrGroups hnarrowed.onFields).1 hclick)

/-- Without a filter a stage selects what its scope does. -/
theorem IsScope.matches_unfiltered (hscope : IsScope m) :
    ∃ query, buildMatch m .empty = .ok query ∧ ∀ click, query.Matches click = true ↔ m.Selects click :=
  ⟨mergeOrGroups m, rfl, fun _ => matches_mergeOrGroups hscope.onFields⟩

theorem mem_listClaimedIds {urls : UrlStore} {i : ObjectId} (h : i ∈ listClaimedIds urls ownerId) :
    ∃ row ∈ urls.docs, row.id = i ∧ row.ownerId = ownerId ∧ row.claimedAt.isSome = true := by
  obtain ⟨row, hrow, rfl⟩ := List.mem_map.1 (List.mem_of_mem_take h)
  obtain ⟨hmem, hclaimed⟩ := List.mem_filter.1 hrow
  simp only [Bool.and_eq_true, decide_eq_true_eq] at hclaimed
  exact ⟨row, hmem, rfl, hclaimed⟩

end StatsService

/-! ## The calls -/

/-- The clicks a call is about, and may show its caller. -/
def StatsCall.MayShow (stores : StatsStores) (click : ClickDoc) : StatsCall → Prop
  | .account _ ownerId => ∃ caller, ownerId = some caller ∧ (click.ownerId = caller ∨
      ∃ row ∈ stores.urls.docs, row.id = click.urlId ∧ row.ownerId = caller ∧ row.claimedAt.isSome = true)
  | .link _ urlId caller => click.urlId = urlId ∧
      ∃ row ∈ stores.urls.docs, row.id = click.urlId ∧ row.ownerId = caller
  | .publicPage urlId => click.urlId = urlId

/-- The call with no filter. -/
def StatsCall.unfiltered : StatsCall → StatsCall
  | .account _ ownerId => .account {} ownerId
  | .link _ urlId caller => .link {} urlId caller
  | .publicPage urlId => .publicPage urlId

variable {lib : StatsLib} {stores : StatsStores} {window : StatsWindow} {query : ClickQuery}

/-- The stage of a call is built on a scope of its own, and so is that of the call without filters. -/
theorem scope_of_matchStage {call : StatsCall} (h : matchStage lib stores window call = .ok query) :
    ∃ m, IsScope m ∧ (∃ filters, buildMatch m filters = .ok query) ∧
      matchStage lib stores window call.unfiltered = buildMatch m .empty ∧
      ∀ click, m.Selects click → call.MayShow stores click := by
  cases call with
  | account params ownerId =>
    obtain ⟨filters, -, hquery⟩ := bind_eq_ok.1 h
    cases ownerId with
    | none => cases hquery
    | some caller =>
      obtain ⟨resolved, -, hbuild⟩ := bind_eq_ok.1 hquery
      have hfilters : StatsQuery.parsedFilters lib {} = .ok .empty := rfl
      have hunfiltered : matchStage lib stores window (.account {} (some caller)) =
          buildMatch (accountScope caller window (listClaimedIds stores.urls caller)) .empty := by
        simp only [matchStage, queryMatch, hfilters]
        rfl
      refine ⟨_, isScope_accountScope, ⟨resolved, hbuild⟩, hunfiltered, fun click hclick => ⟨caller, rfl, ?_⟩⟩
      exact (selects_accountScope.1 hclick).1.imp_right mem_listClaimedIds
  | link params urlId caller =>
    obtain ⟨filters, -, hquery⟩ := bind_eq_ok.1 h
    obtain ⟨row, howned, hbuild⟩ := bind_eq_ok.1 hquery
    have hfound : stores.urls.findOne (fun row => row.id = urlId && row.ownerId = caller) = some row := by
      unfold getOwned at howned
      split at howned
      · cases howned
      · rename_i found hfound
        cases howned
        exact hfound
    have hpasses := List.find?_some hfound
    simp only [Bool.and_eq_true, decide_eq_true_eq] at hpasses
    refine ⟨_, isScope_linkScope, ⟨filters, hbuild⟩, ?_, fun click hclick => ?_⟩
    · have hfilters : StatsQuery.parsedLinkFilters lib {} = .ok .empty := rfl
      simp only [StatsCall.unfiltered, matchStage, queryLinkMatch, hfilters, howned]
      rfl
    · have hurl : click.urlId = row.id := (selects_linkScope.1 hclick).1
      exact ⟨hurl.trans hpasses.1, row, List.mem_of_find?_eq_some hfound, hurl.symm, hpasses.2⟩
  | publicPage urlId =>
    exact ⟨_, isScope_linkScope, ⟨_, h⟩, rfl, fun click hclick => (selects_linkScope.1 hclick).1⟩

/-- Whatever a request filters by, the stage of a call selects only clicks that the call may show, and
only clicks that the call without filters selects. -/
theorem stats_isolated (lib : StatsLib) (stores : StatsStores) (window : StatsWindow) (call : StatsCall)
    (query : ClickQuery) (h : matchStage lib stores window call = .ok query) (click : ClickDoc)
    (hclick : query.Matches click = true) :
    call.MayShow stores click ∧ ∃ whole, matchStage lib stores window call.unfiltered = .ok whole ∧
      whole.Matches click = true := by
  obtain ⟨m, hscope, ⟨filters, hbuild⟩, hunfiltered, hshows⟩ := scope_of_matchStage h
  have hselected := hscope.selects hbuild hclick
  obtain ⟨whole, hwhole, hmatches⟩ := hscope.matches_unfiltered
  exact ⟨hshows click hselected, whole, hunfiltered.trans hwhole, (hmatches click).2 hselected⟩

/-! ## A claimed link -/

/-- A link that its owner has claimed. -/
def claimedLink : UrlRow where
  id := 1
  ownerId := 7
  linkAlias := "aaa"
  domain := "spoo.me"
  longUrl := "https://a.example/page"
  claimedAt := some (.encode 0)

/-- The one link, and no tags. -/
def claimedStores : StatsStores where
  urls := .single claimedLink
  tags := .empty

/-- A click on the link from before it was claimed. -/
def clickBeforeClaim : ClickDoc where
  clickedAt := 5
  urlId := 1
  shortCode := "aaa"
  ownerId := anonymousOwnerId
  ipAddress := "192.0.2.1"
  browser := .value "Firefox"
  os := .value "Linux"

/-- A request that asks for another owner and for clicks without a referrer. -/
def wideningLib : StatsLib where
  loads _ := some (some (PyDict.ofList [("meta.owner_id", .other "8"), ("referrer", .list ["Direct"])]))
  normaliseTag := .ok

theorem stats_isolated_claimedLink :
    ((matchStage wideningLib claimedStores ⟨0, 9⟩ (.account { filters := some "{}" } (some 7))).toOption.any
      (·.Matches clickBeforeClaim)) = true ∧
    (StatsCall.account { filters := some "{}" } (some 7)).MayShow claimedStores clickBeforeClaim := by
  have hselected : ((matchStage wideningLib claimedStores ⟨0, 9⟩
      (.account { filters := some "{}" } (some 7))).toOption.any (·.Matches clickBeforeClaim)) = true := by
    decide +kernel
  refine ⟨hselected, ?_⟩
  cases hquery : matchStage wideningLib claimedStores ⟨0, 9⟩ (.account { filters := some "{}" } (some 7)) with
  | error error =>
    rw [hquery] at hselected
    cases hselected
  | ok query =>
    rw [hquery] at hselected
    exact (stats_isolated _ _ _ _ query hquery clickBeforeClaim hselected).1

end Spoo
