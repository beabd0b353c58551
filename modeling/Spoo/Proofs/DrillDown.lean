import Spoo.Proofs.StatsIsolation
import Spoo.Services.Click.Handlers

/-!
# From a row to its clicks

A row of the grouped clicks is asked for again by its value. The default that missing values are shown
under is the sentinel of the filter, and the filter lets the empty text pass with it, which has a row of
its own.
-/

namespace Spoo

open Mongo Fallible StatsService

variable {countryName : String → String} {dimension : StatsDimension} {sentinel : String}
  {strategy : FieldAggregationStrategy} {click : ClickDoc} {s stored : StoredScalar}

/-! ## What a click is shown under -/

/-- The default of a group is the sentinel of the filter. -/
theorem groupId_eq (hsentinel : nullSentinel dimension = some sentinel)
    (hstrategy : fieldStrategies countryName dimension = some strategy) (click : ClickDoc) :
    strategy.groupId click = (click.field dimension).toOption.getD (.text sentinel) := by
  have hshape : strategy.mongoField = (fun click => click.field dimension) ∧
      strategy.default = some sentinel := by
    cases dimension <;> cases hsentinel <;> cases hstrategy <;> exact ⟨rfl, rfl⟩
  rw [FieldAggregationStrategy.groupId, hshape.1, hshape.2]
  dsimp only
  cases click.field dimension <;> rfl

/-- Clicks without a value are shown under the sentinel, and the others under theirs. -/
theorem bucketOf_eq (hsentinel : nullSentinel dimension = some sentinel)
    (hstrategy : fieldStrategies countryName dimension = some strategy) (click : ClickDoc) :
    strategy.bucketOf click = ((click.field dimension).toOption.map StoredScalar.str).getD sentinel := by
  have hstr : strategy.transform = StoredScalar.str := by
    cases dimension <;> cases hsentinel <;> cases hstrategy <;> rfl
  rw [FieldAggregationStrategy.bucketOf, groupId_eq hsentinel hstrategy, hstr]
  cases click.field dimension <;> rfl

/-- No sentinel is the empty text. -/
theorem ne_empty_of_nullSentinel (hsentinel : nullSentinel dimension = some sentinel) : sentinel ≠ "" := by
  cases dimension <;> cases hsentinel <;> decide

/-- The indices of variants are numbers, and all else is text. -/
theorem field_eq (h : click.field dimension = .value s) :
    if dimension = .variant then ∃ n, s = .number n else ∃ text, s = .text text := by
  have htext {field : DocField String} (h : textField field = .value s) : ∃ text, s = .text text := by
    cases field with
    | value text => exact ⟨text, (DocField.value.inj h).symm⟩
    | missing => cases h
    | null => cases h
  have hnumber {field : DocField Nat} (h : numberField field = .value s) : ∃ n, s = .number n := by
    cases field with
    | value n => exact ⟨n, (DocField.value.inj h).symm⟩
    | missing => cases h
    | null => cases h
  cases dimension <;> first | exact htext h | exact hnumber h | cases h

/-- No number is written like the sentinel of the variants. -/
theorem toString_ne_default (n : Nat) : toString n ≠ "(default)" := by
  intro h
  have hdigits := Py.isdigit_toString n
  rw [h] at hdigits
  exact absurd hdigits (by decide)

/-- What a row is shown under is read back, and leads to what is shown so. -/
theorem exists_storedValues (hsentinel : nullSentinel dimension = some sentinel) {value : String}
    (hshown : ((click.field dimension).toOption.map StoredScalar.str).getD sentinel = value) :
    ∃ stored, storedValues dimension [value] = .ok [stored] ∧
      ∀ other s, ClickDoc.field other dimension = .value s → (s = stored ↔ s.str = value) := by
  by_cases hvariant : dimension = .variant
  · subst hvariant
    have hnumber {other : ClickDoc} {s : StoredScalar} (h : other.field .variant = .value s) :
        ∃ n, s = .number n := by simpa using field_eq h
    cases hfield : click.field .variant with
    | value s =>
      obtain ⟨n, rfl⟩ := hnumber hfield
      have hvalue : value = toString n := by
        rw [← hshown, hfield]
        rfl
      subst hvalue
      refine ⟨.number n, ?_, fun other s hs => ?_⟩
      · have hread : storedVariant (toString n) = .ok (.number n) := by
          rw [storedVariant, if_pos (Py.isdigit_toString n), Py.int?_toString]
        rw [storedValues, if_pos rfl, List.mapM_cons, hread]
        rfl
      · obtain ⟨m, rfl⟩ := hnumber hs
        constructor
        · rintro ⟨rfl⟩
          rfl
        · intro hstr
          have hread := congrArg Py.int? (show toString m = toString n from hstr)
          rw [Py.int?_toString, Py.int?_toString, Option.some.injEq] at hread
          rw [hread]
    | _ =>
      have hvalue : value = "(default)" := by
        have hdefault : sentinel = "(default)" := (Option.some.inj hsentinel).symm
        rw [← hshown, hfield, ← hdefault]
        rfl
      subst hvalue
      refine ⟨.text "(default)", by decide, fun other s hs => ?_⟩
      obtain ⟨m, rfl⟩ := hnumber hs
      exact iff_of_false (by simp) (toString_ne_default m)
  · refine ⟨.text value, by simp [storedValues, hvariant], fun other s hs => ?_⟩
    obtain ⟨text, rfl⟩ : ∃ text, s = .text text := by simpa [hvariant] using field_eq hs
    rw [StoredScalar.text.injEq]
    rfl

/-! ## What a row asks for -/

/-- The test of a dimension that is filtered by one value. -/
def Asked (dimension : StatsDimension) (value : String) (click : ClickDoc) : Prop :=
  nullSentinel dimension = some value ∧ click.field dimension = .value (.text "") ∨
    ∃ sentinel, nullSentinel dimension = some sentinel ∧
      ((click.field dimension).toOption.map StoredScalar.str).getD sentinel = value

theorem applyFilter_eq {m : ClickMatch} {values : List String} {stored : List StoredScalar}
    (hcode : dimension ≠ .shortCode) (hurl : dimension ≠ .urlId) (hvalues : values ≠ [])
    (hstored : storedValues dimension values = .ok stored) :
    applyFilter m (dimension, values) = .ok (if (nullSentinel dimension).any (· ∈ values) then
      { m with orGroups := m.orGroups ++ [sentinelGroup dimension stored] }
      else set m (isStored dimension stored)) := by
  simp only [applyFilter, if_neg hvalues, if_neg hcode, if_neg hurl, hstored, bind, Except.bind, pure,
    Except.pure]
  split <;> rfl

/-- A filter on the value of a row adds this test, and no more. -/
theorem exists_applyFilter {m : ClickMatch} (hsentinel : nullSentinel dimension = some sentinel)
    (hfree : m.FreeFor dimension) {value : String}
    (hshown : ((click.field dimension).toOption.map StoredScalar.str).getD sentinel = value) :
    ∃ m', applyFilter m (dimension, [value]) = .ok m' ∧
      ∀ other, m'.Selects other ↔ m.Selects other ∧ Asked dimension value other := by
  obtain ⟨stored, hstored, hread⟩ := exists_storedValues hsentinel hshown
  have hcode : dimension ≠ .shortCode := by
    rintro rfl
    cases hsentinel
  have hurl : dimension ≠ .urlId := by
    rintro rfl
    cases hsentinel
  have hpath : (isStored dimension [stored]).1 ∉ m.query.keys := by
    have hunset := hfree.resolve_left hurl
    rwa [path_eq_storedField hcode hurl] at hunset
  have hshown_iff (other : ClickDoc) : (isStored dimension [stored]).2 other = true ↔
      ∃ s, other.field dimension = .value s ∧ s.str = value := by
    simp only [isStored, onField, Query.field, DocField.isIn]
    cases hfield : other.field dimension with
    | value s =>
      simp only [List.mem_singleton, decide_eq_true_eq, DocField.value.injEq, exists_eq_left', hread other s hfield]
    | _ => simp
  refine ⟨_, applyFilter_eq hcode hurl (List.cons_ne_nil _ _) hstored, fun other => ?_⟩
  by_cases hvalue : value = sentinel
  · subst hvalue
    rw [if_pos (by simp [hsentinel]), selects_alternatives, Asked]
    refine and_congr_right fun _ => ?_
    simp only [sentinelGroup, List.exists_mem_cons_iff, List.not_mem_nil, Query.matches_single, hshown_iff]
    simp only [onField, Query.field, hsentinel]
    cases hfield : other.field dimension <;>
      simp [DocField.isNotNull, DocField.is, DocField.isPresent, DocField.toOption, or_comm]
  · rw [if_neg (by simp [hsentinel, Ne.symm hvalue]), selects_set hpath, hshown_iff, Asked, hsentinel]
    refine and_congr_right fun _ => ?_
    cases hfield : other.field dimension <;> simp [DocField.toOption, Ne.symm hvalue]

/-- A row that is asked for by its value: the stage selects the clicks that are counted in the row, unless
the value is the sentinel and one of the clicks that were grouped stores the empty text. -/
theorem drill_down_iff (countryName : String → String) (dimension : StatsDimension) (sentinel : String)
    (strategy : FieldAggregationStrategy) (hsentinel : nullSentinel dimension = some sentinel)
    (hstrategy : fieldStrategies countryName dimension = some strategy) (scope : ClickMatch)
    (hscope : IsScope scope) (filters : StatsFilters) (hfilters : dimension ∉ filters.keys)
    (query : ClickQuery) (hquery : buildMatch scope filters = .ok query) (clicks : List ClickDoc)
    (bucket : StatsBucket) (hbucket : bucket ∈ strategy.buckets (clicks.filter query.Matches)) :
    ∃ drilled, buildMatch scope (filters.assign dimension [bucket.value]) = .ok drilled ∧
      (clicks.filter drilled.Matches = (clicks.filter query.Matches).filter
          (fun click => strategy.bucketOf click = bucket.value) ↔
        bucket.value ≠ sentinel ∨
          ∀ click ∈ clicks.filter query.Matches, click.field dimension ≠ .value (.text "")) := by
  obtain ⟨shown, -, hshown⟩ := FieldAggregationStrategy.exists_bucketOf hbucket
  obtain ⟨m, hm, hmerge⟩ := bind_eq_ok.1 hquery
  cases hmerge
  have hnarrowed := narrowed_applyDimensionFilters hscope.onFields hscope.freeFor hm
  have hfree := hnarrowed.freeFor dimension hfilters (hscope.freeFor dimension)
  rw [bucketOf_eq hsentinel hstrategy] at hshown
  obtain ⟨m', hm', hselects⟩ := exists_applyFilter hsentinel hfree hshown
  have hlast : applyDimensionFilters scope (filters.assign dimension [bucket.value]) = .ok m' := by
    rw [applyDimensionFilters, PyDict.entries_assign, PyDict.assignEntry_of_not_mem hfilters]
    refine foldlM_append_eq_ok.2 ⟨m, hm, ?_⟩
    rw [List.foldlM_cons, hm']
    rfl
  have hfields' := (filtered_applyFilter hfree hm').onFields hnarrowed.onFields
  have hwhole (click : ClickDoc) : (mergeOrGroups m).Matches click = true ↔ m.Selects click :=
    matches_mergeOrGroups hnarrowed.onFields
  have hdrilled (click : ClickDoc) : (mergeOrGroups m').Matches click = true ↔
      (mergeOrGroups m).Matches click = true ∧ Asked dimension bucket.value click := by
    rw [matches_mergeOrGroups hfields', hselects, hwhole]
  refine ⟨mergeOrGroups m', by rw [buildMatch, hlast]; rfl, ?_⟩
  rw [List.filter_filter, PyList.filter_eq_filter_iff]
  simp only [hdrilled, Bool.and_eq_true, decide_eq_true_eq, List.mem_filter, and_imp]
  constructor
  · intro hsame
    by_contra hmixed
    rw [not_or, not_not] at hmixed
    obtain ⟨hvalue, hempty⟩ := hmixed
    refine hempty fun click hclick hmatches hfield => ?_
    have hasked : Asked dimension bucket.value click := .inl ⟨hvalue ▸ hsentinel, hfield⟩
    have hcounted := ((hsame click hclick).1 ⟨hmatches, hasked⟩).1
    rw [bucketOf_eq hsentinel hstrategy, hfield, hvalue] at hcounted
    exact ne_empty_of_nullSentinel hsentinel hcounted.symm
  · intro hapart click hclick
    rw [bucketOf_eq hsentinel hstrategy, and_comm]
    refine and_congr_left fun hmatches => ?_
    constructor
    · rintro (⟨hvalue, hfield⟩ | ⟨other, hother, hshown⟩)
      · rw [hsentinel, Option.some.injEq] at hvalue
        rcases hapart with hne | hnone
        · exact absurd hvalue.symm hne
        · exact absurd hfield (hnone click hclick hmatches)
      · rw [hsentinel, Option.some.injEq] at hother
        rw [hother]
        exact hshown
    · exact fun hshown => .inr ⟨sentinel, hsentinel, hshown⟩

/-! ## Clicks without a referrer -/

/-- A click on a link of the owner. -/
def ownClick (referrer : DocField String) (variantIndex : DocField Nat) : ClickDoc where
  clickedAt := 5
  urlId := 1
  shortCode := "aaa"
  ownerId := 7
  ipAddress := "192.0.2.1"
  browser := .value "Firefox"
  os := .value "Linux"
  referrer
  variantIndex

/-- Two clicks on the default destination, and one on the second variant. -/
def variantClicks : List ClickDoc := [ownClick .missing .missing, ownClick .null .null, ownClick .null (.value 1)]

theorem drill_down_iff_variant :
    ∃ drilled, buildMatch (accountScope 7 ⟨0, 9⟩ []) (PyDict.empty.assign .variant ["1"]) = .ok drilled ∧
      (variantClicks.filter drilled.Matches =
          (variantClicks.filter (mergeOrGroups (accountScope 7 ⟨0, 9⟩ [])).Matches).filter
            (fun click => FieldAggregationStrategy.bucketOf
              { mongoField := (·.field .variant), outputKey := "variant", limit := 50, default := some "(default)" }
              click = "1") ↔
        "1" ≠ "(default)" ∨ ∀ click ∈ variantClicks.filter (mergeOrGroups (accountScope 7 ⟨0, 9⟩ [])).Matches,
          click.field .variant ≠ .value (.text "")) :=
  drill_down_iff id .variant "(default)" _ rfl rfl (accountScope 7 ⟨0, 9⟩ []) isScope_accountScope .empty
    (by decide) _ rfl variantClicks ⟨"1", 1, 1⟩ (by decide +kernel)

/-- What the primitives return for a referrer that is a path alone. -/
def pathUrlLib : UrlLib := { asciiUrlLib with
  tldExtract := fun value => ⟨"", String.ofList (value.toList.takeWhile (· ≠ '/')), ""⟩ }

/-- A click that came with no referrer, and one whose referrer had no host. -/
def hostlessClicks : List ClickDoc :=
  [ownClick .missing .missing, ownClick (.ofOption (V2ClickHandler.sanitizedReferrer pathUrlLib (some "/page"))) .missing]

/-- One of the two is counted under the sentinel, and the filter on the sentinel selects both. -/
theorem hostless_click_joins_direct :
    ∃ strategy query drilled, fieldStrategies id .referrer = some strategy ∧
      buildMatch (accountScope 7 ⟨0, 9⟩ []) .empty = .ok query ∧
      buildMatch (accountScope 7 ⟨0, 9⟩ []) (PyDict.empty.assign .referrer ["Direct"]) = .ok drilled ∧
      ⟨"Direct", 1, 1⟩ ∈ strategy.buckets (hostlessClicks.filter query.Matches) ∧
      hostlessClicks.filter drilled.Matches = hostlessClicks ∧
      hostlessClicks.filter drilled.Matches ≠ (hostlessClicks.filter query.Matches).filter
        fun click => strategy.bucketOf click = "Direct" :=
  ⟨_, _, _, rfl, rfl, rfl, by decide +kernel, by decide +kernel, by decide +kernel⟩

end Spoo
