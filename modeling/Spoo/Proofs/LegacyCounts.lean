import Spoo.Services.Click.LegacyHandler

/-!
# Whether the counters of a v1 link add up

A family without a dot is one component of its path, and its counter is where the stats page looks. A
family with a dot is two or more, and its counter is a level too deep.
-/

namespace Spoo

open Bson LegacyClickHandler PublicStatsService

variable {readers : LegacyReaders} {accepts : String → Bool}

/-! ## The rows -/

/-- What an entry adds to the clicks that are shown. -/
def countOf (readers : LegacyReaders) (value : Value) : Int := (entryCount readers value).getD 0

/-- What the entries of a map add up to. -/
def countTotal (readers : LegacyReaders) (entries : List (String × Value)) : Int :=
  (entries.map fun e => countOf readers e.2).sum

theorem sum_addEntry (transform : String → String) (rows : DimensionRows) (entry : String × Value) :
    ((addEntry readers transform rows entry).clicks.entries.map Prod.snd).sum =
      (rows.clicks.entries.map Prod.snd).sum + countOf readers entry.2 := by
  unfold addEntry countOf
  cases hcount : entryCount readers entry.2 with
  | none => simp
  | some count =>
    have hsum := PyDict.sum_assignEntry id (transform entry.1)
      ((rows.clicks.get? (transform entry.1)).getD 0 + count) rows.clicks.entries
    have hold : (((rows.clicks.entries.find? fun e => e.1 = transform entry.1).map fun e => id e.2).getD 0) =
        (rows.clicks.get? (transform entry.1)).getD 0 := rfl
    rw [hold] at hsum
    simp only [PyDict.entries_assign, Option.getD_some]
    have hmap (es : List (String × Int)) : (es.map fun e => id e.2) = es.map Prod.snd := rfl
    rw [hmap, hmap, id] at hsum
    omega

/-- Merging values and skipping entries, the rows show what the entries add up to. -/
theorem sum_v1DimensionRows (transform : String → String) (source : List (String × Value)) :
    ((v1DimensionRows readers transform source).1.map Prod.snd).sum = countTotal readers source := by
  have hloop (source : List (String × Value)) : ∀ rows : DimensionRows,
      ((source.foldl (addEntry readers transform) rows).clicks.entries.map Prod.snd).sum =
        (rows.clicks.entries.map Prod.snd).sum + countTotal readers source := by
    induction source with
    | nil => exact fun rows => by simp [countTotal]
    | cons entry source ih =>
      intro rows
      rw [List.foldl_cons, ih, sum_addEntry, countTotal, countTotal, List.map_cons, List.sum_cons]
      omega
  have hsorted := ((List.perm_insertionSort (fun a b : String × Int => b.2 ≤ a.2)
    (source.foldl (addEntry readers transform) {}).clicks.entries).map Prod.snd).sum_eq
  rw [v1DimensionRows]
  dsimp only
  rw [hsorted, hloop]
  simp

/-! ## One operator -/

theorem countOf_doc (fields : List (String × Value)) : countOf readers (.doc fields) =
    (intOrZero readers ((get? fields "counts").getD (.int 0))).getD 0 := rfl

/-- An array or a document is no count. -/
theorem intOrZero_container {value : Value} (h : Container value) :
    (intOrZero readers value).getD 0 = 0 := by
  cases h with
  | array items => cases items <;> rfl
  | doc fields => cases fields <;> rfl

/-- An entry that goes deeper counts as much as before. -/
theorem countOf_modifyAt_deep {op : Option Value → Except UpdateError Value} {inner next : String}
    {path : List String} {old : Option Value} {value : Value}
    (h : modifyAt accepts op (inner :: next :: path) old = .ok value) :
    countOf readers value = (old.map (countOf readers)).getD 0 := by
  cases old with
  | none =>
    obtain ⟨-, w, hw, rfl⟩ := modifyAt_none.1 h
    by_cases hinner : inner = "counts"
    · simp [countOf_doc, get?, hinner, intOrZero_container (container_of_modifyAt hw).2]
    · simp [countOf_doc, get?, hinner, intOrZero]
  | some entry =>
    cases entry with
    | doc fields =>
      obtain ⟨-, w, hw, rfl⟩ := modifyAt_doc.1 h
      rw [countOf_doc, get?_assignEntry, Option.map_some, Option.getD_some, countOf_doc]
      by_cases hinner : inner = "counts"
      · subst hinner
        rw [if_pos rfl, Option.getD_some, intOrZero_container (container_of_modifyAt hw).2]
        cases hcounts : get? fields "counts" with
        | none => rfl
        | some count => exact (intOrZero_container ((container_of_modifyAt hw).1 count hcounts)).symm
      · rw [if_neg hinner]
    | array items =>
      obtain ⟨-, items', rfl⟩ := modifyAt_array h
      have hbefore : countOf readers (.array items) = 0 := @intOrZero_container readers _ (.array items)
      have hafter : countOf readers (.array items') = 0 := @intOrZero_container readers _ (.array items')
      rw [hafter, Option.map_some, Option.getD_some, hbefore]
    | _ => simp [modifyAt] at h

theorem countOf_modifyAt_inc {old : Option Value} {value : Value}
    (h : modifyAt accepts (UpdateOp.inc 1).run ["counts"] old = .ok value) :
    countOf readers value = (old.map (countOf readers)).getD 0 + 1 := by
  cases old with
  | none =>
    obtain ⟨-, w, hw, rfl⟩ := modifyAt_none.1 h
    cases hw
    rfl
  | some entry =>
    cases entry with
    | doc fields =>
      obtain ⟨-, w, hw, rfl⟩ := modifyAt_doc.1 h
      rw [countOf_doc, get?_assignEntry, if_pos rfl, Option.map_some, Option.getD_some, countOf_doc]
      cases hcounts : get? fields "counts" with
      | none =>
        rw [hcounts] at hw
        cases hw
        rfl
      | some count =>
        rw [hcounts] at hw
        cases count with
        | int n =>
          cases hw
          rfl
        | _ => cases hw
    | array items =>
      obtain ⟨⟨i, hindex⟩, -⟩ := modifyAt_array h
      have hnone : arrayIndex "counts" = none := by decide
      rw [hnone] at hindex
      cases hindex
    | _ => simp [modifyAt] at h

theorem countOf_modifyAt_ips {op : Option Value → Except UpdateError Value} {old : Option Value}
    {value : Value} (h : modifyAt accepts op ["ips"] old = .ok value) :
    countOf readers value = (old.map (countOf readers)).getD 0 := by
  cases old with
  | none =>
    obtain ⟨-, w, -, rfl⟩ := modifyAt_none.1 h
    rfl
  | some entry =>
    cases entry with
    | doc fields =>
      obtain ⟨-, w, -, rfl⟩ := modifyAt_doc.1 h
      rw [countOf_doc, get?_assignEntry, if_neg (by decide), Option.map_some, Option.getD_some, countOf_doc]
    | array items =>
      obtain ⟨⟨i, hindex⟩, -⟩ := modifyAt_array h
      have hnone : arrayIndex "ips" = none := by decide
      rw [hnone] at hindex
      cases hindex
    | _ => simp [modifyAt] at h

/-! ## One click -/

/-- How much an operator of an update adds to what a dimension counts. -/
inductive Adds (dimension : V1Dimension) : List String → UpdateOp → Int → Prop where
  | elsewhere {field path op} : field ≠ dimension.field → Adds dimension (field :: path) op 0
  | count {key} : Adds dimension [dimension.field, key, "counts"] (.inc 1) 1
  | address {key op} : Adds dimension [dimension.field, key, "ips"] op 0
  | deeper {key inner next path op} :
      Adds dimension (dimension.field :: key :: inner :: next :: path) op 0

/-- The field of a dimension is a map, or is not there yet. -/
def HasMap (dimension : V1Dimension) (root : Value) : Prop :=
  ∃ fields, root = .doc fields ∧
    ∀ value, get? fields dimension.field = some value → ∃ entries, value = .doc entries

/-- What a document counts for a dimension. -/
def dimensionTotal (readers : LegacyReaders) (dimension : V1Dimension) (root : Value) : Int :=
  countTotal readers (mapOf root dimension.field)

/-- One entry of a map changes: the map counts the difference. -/
theorem countTotal_assignEntry {key : String} {value : Value} {entries : List (String × Value)} {added : Int}
    (h : countOf readers value = ((get? entries key).map (countOf readers)).getD 0 + added) :
    countTotal readers (PyDict.assignEntry key value entries) = countTotal readers entries + added := by
  have hsum := PyDict.sum_assignEntry (countOf readers) key value entries
  have hold : ((entries.find? fun e => e.1 = key).map fun e => countOf readers e.2) =
      (get? entries key).map (countOf readers) := by
    rw [get?, Option.map_map]
    rfl
  rw [hold, h] at hsum
  rw [countTotal, countTotal, hsum]
  omega

/-- An operator below the field of a dimension, from what it makes of the entry. -/
theorem dimensionTotal_modifyAt {dimension : V1Dimension} {op : Option Value → Except UpdateError Value}
    {key : String} {rest : List String} {added : Int} {root root' : Value} (hmap : HasMap dimension root)
    (hentry : ∀ {old value}, modifyAt accepts op rest old = .ok value →
      countOf readers value = (old.map (countOf readers)).getD 0 + added)
    (h : modifyAt accepts op (dimension.field :: key :: rest) (some root) = .ok root') :
    HasMap dimension root' ∧
      dimensionTotal readers dimension root' = dimensionTotal readers dimension root + added := by
  obtain ⟨fields, rfl, hfield⟩ := hmap
  obtain ⟨-, w, hw, rfl⟩ := modifyAt_doc.1 h
  cases hget : get? fields dimension.field with
  | none =>
    rw [hget] at hw
    obtain ⟨-, value, hvalue, rfl⟩ := modifyAt_none.1 hw
    refine ⟨⟨_, rfl, ?_⟩, ?_⟩
    · intro new hnew
      rw [get?_assignEntry, if_pos rfl] at hnew
      exact ⟨_, (Option.some.inj hnew).symm⟩
    · have hcount := hentry hvalue
      simp only [Option.map_none, Option.getD_none, Int.zero_add] at hcount
      simp [dimensionTotal, mapOf, hget, countTotal, hcount]
  | some old =>
    obtain ⟨entries, rfl⟩ := hfield old hget
    rw [hget] at hw
    obtain ⟨-, value, hvalue, rfl⟩ := modifyAt_doc.1 hw
    refine ⟨⟨_, rfl, ?_⟩, ?_⟩
    · intro new hnew
      rw [get?_assignEntry, if_pos rfl] at hnew
      exact ⟨_, (Option.some.inj hnew).symm⟩
    · simp [dimensionTotal, mapOf, hget, countTotal_assignEntry (hentry hvalue)]

theorem Adds.modifyAt {dimension : V1Dimension} {path : List String} {op : UpdateOp} {added : Int}
    {root root' : Value} (hadds : Adds dimension path op added) (hmap : HasMap dimension root)
    (h : modifyAt accepts op.run path (some root) = .ok root') :
    HasMap dimension root' ∧
      dimensionTotal readers dimension root' = dimensionTotal readers dimension root + added := by
  cases hadds with
  | elsewhere hother =>
    obtain ⟨fields, rfl, hfield⟩ := hmap
    obtain ⟨-, w, -, rfl⟩ := modifyAt_doc.1 h
    refine ⟨⟨_, rfl, ?_⟩, ?_⟩
    · rwa [get?_assignEntry, if_neg hother]
    · simp [dimensionTotal, mapOf, hother]
  | count => exact dimensionTotal_modifyAt hmap (fun hvalue => countOf_modifyAt_inc hvalue) h
  | address =>
    refine dimensionTotal_modifyAt hmap (fun hvalue => ?_) h
    rw [countOf_modifyAt_ips hvalue, Int.add_zero]
  | deeper =>
    refine dimensionTotal_modifyAt hmap (fun hvalue => ?_) h
    rw [countOf_modifyAt_deep hvalue, Int.add_zero]

/-- How much the operators of an update add, one after the other. -/
inductive AddsAll (dimension : V1Dimension) : List (String × UpdateOp) → Int → Prop where
  | nil : AddsAll dimension [] 0
  | cons {path op ops first rest} : Adds dimension (pathOf path) op first → AddsAll dimension ops rest →
      AddsAll dimension ((path, op) :: ops) (first + rest)

theorem AddsAll.update {dimension : V1Dimension} {ops : List (String × UpdateOp)} {added : Int}
    (hadds : AddsAll dimension ops added) : ∀ {root root' : Value}, HasMap dimension root →
    update accepts ops root = .ok root' →
    HasMap dimension root' ∧
      dimensionTotal readers dimension root' = dimensionTotal readers dimension root + added := by
  induction hadds with
  | nil =>
    rintro root root' hmap hupdate
    cases hupdate
    exact ⟨hmap, (Int.add_zero _).symm⟩
  | cons hfirst _ ih =>
    rintro root root' hmap hupdate
    rw [Bson.update, List.foldlM_cons] at hupdate
    obtain ⟨next, hnext, hrest⟩ := Fallible.bind_eq_ok.1 hupdate
    obtain ⟨hmap', htotal⟩ := hfirst.modifyAt hmap hnext
    obtain ⟨hmap'', htotal'⟩ := ih hmap' hrest
    exact ⟨hmap'', by rw [htotal', htotal, Int.add_assoc]⟩

theorem AddsAll.append {dimension : V1Dimension} {ops ops' : List (String × UpdateOp)} {first second : Int}
    (h : AddsAll dimension ops first) (h' : AddsAll dimension ops' second) :
    AddsAll dimension (ops ++ ops') (first + second) := by
  induction h with
  | nil => rwa [Int.zero_add]
  | cons hop _ ih =>
    rw [Int.add_assoc]
    exact .cons hop ih

/-! ## The update of a click -/

section

variable {dimension : V1Dimension} {field key leaf : String} {op : UpdateOp}

theorem pathOf_entryPath (hfield : '.' ∉ field.toList) (hleaf : '.' ∉ leaf.toList) :
    pathOf (entryPath field key leaf) = field :: (pathOf key ++ [leaf]) := by
  rw [entryPath, pathOf_append, pathOf_append, pathOf_of_notMem hfield, pathOf_of_notMem hleaf,
    List.singleton_append, List.cons_append]

/-- A key with a dot puts the leaf a level too deep. -/
theorem Adds.of_dotted (hfield : '.' ∉ field.toList) (hleaf : '.' ∉ leaf.toList) (hkey : '.' ∈ key.toList) :
    Adds dimension (pathOf (entryPath field key leaf)) op 0 := by
  rw [pathOf_entryPath hfield hleaf]
  by_cases hother : field = dimension.field
  · obtain ⟨first, second, rest, hpath⟩ := exists_pathOf_of_mem hkey
    rw [hpath, hother]
    cases rest with
    | nil => exact .deeper
    | cons next rest => exact .deeper
  · exact .elsewhere hother

theorem Adds.of_counts (hfield : '.' ∉ field.toList) :
    Adds dimension (pathOf (entryPath field key "counts")) (.inc 1)
      (if field = dimension.field then if '.' ∈ key.toList then 0 else 1 else 0) := by
  by_cases hkey : '.' ∈ key.toList
  · rw [if_pos hkey, ite_self]
    exact .of_dotted hfield (by decide) hkey
  · rw [if_neg hkey, pathOf_entryPath hfield (by decide), pathOf_of_notMem hkey]
    by_cases hother : field = dimension.field
    · rw [if_pos hother, hother]
      exact .count
    · rw [if_neg hother]
      exact .elsewhere hother

theorem Adds.of_ips (hfield : '.' ∉ field.toList) :
    Adds dimension (pathOf (entryPath field key "ips")) op 0 := by
  by_cases hkey : '.' ∈ key.toList
  · exact .of_dotted hfield (by decide) hkey
  · rw [pathOf_entryPath hfield (by decide), pathOf_of_notMem hkey]
    by_cases hother : field = dimension.field
    · rw [hother]
      exact .address
    · exact .elsewhere hother

theorem Adds.of_other (hfield : '.' ∉ field.toList) (hother : field ≠ dimension.field) :
    Adds dimension (pathOf field) op 0 := by
  rw [pathOf_of_notMem hfield]
  exact .elsewhere hother

theorem Adds.of_otherMap (hfield : '.' ∉ field.toList) (hother : field ≠ dimension.field) :
    Adds dimension (pathOf (field ++ "." ++ key)) op 0 := by
  rw [pathOf_append, pathOf_of_notMem hfield]
  exact .elsewhere hother

end

/-- What a click is counted under. -/
def LegacyClick.family (click : LegacyClick) : V1Dimension → String
  | .browser => click.browser
  | .os => click.osName
  | .country => click.country

theorem addsAll_option {dimension : V1Dimension} {ops : String → String × UpdateOp} {key : Option String}
    (h : ∀ key, Adds dimension (pathOf (ops key).1) (ops key).2 0) :
    AddsAll dimension (key.toList.map ops) 0 := by
  cases key with
  | none => exact .nil
  | some key => exact .cons (h key) .nil

/-- A click adds one to each dimension whose family has no dot. -/
theorem addsAll_updates (dimension : V1Dimension) (click : LegacyClick) :
    AddsAll dimension (updates click) (if '.' ∈ (click.family dimension).toList then 0 else 1) := by
  have hcounts : AddsAll dimension
      [(entryPath "country" click.country "counts", .inc 1),
        (entryPath "browser" click.browser "counts", .inc 1),
        (entryPath "os_name" click.osName "counts", .inc 1)]
      (if '.' ∈ (click.family dimension).toList then 0 else 1) := by
    have hcountry : '.' ∉ "country".toList := by decide
    have hbrowser : '.' ∉ "browser".toList := by decide
    have hosName : '.' ∉ "os_name".toList := by decide
    have hentries : AddsAll dimension _ _ := .cons (@Adds.of_counts _ _ click.country hcountry)
      (.cons (@Adds.of_counts _ _ click.browser hbrowser)
        (.cons (@Adds.of_counts _ _ click.osName hosName) .nil))
    convert hentries using 1
    cases dimension with
    | _ =>
      simp [V1Dimension.field]
      rfl
  have hother {field : String} (hfield : field ∉ ["browser", "os_name", "country"]) :
      field ≠ dimension.field := by
    rintro rfl
    cases dimension with
    | _ => exact hfield (by decide)
  have hnumbers : AddsAll dimension
      [("counter" ++ "." ++ click.day, .inc 1), ("unique_counter" ++ "." ++ click.day, .inc 1),
        ("total-clicks", .inc 1),
        ("last-click-browser", .set (.str click.browser)), ("last-click-os", .set (.str click.osName)),
        ("last-click-country", .set click.lastClickCountry), ("last-click", .max click.second)] 0 :=
    .cons (.of_otherMap (by decide) (hother (by decide)))
      (.cons (.of_otherMap (by decide) (hother (by decide)))
        (.cons (.of_other (by decide) (hother (by decide)))
          (.cons (.of_other (by decide) (hother (by decide)))
            (.cons (.of_other (by decide) (hother (by decide)))
              (.cons (.of_other (by decide) (hother (by decide)))
                (.cons (.of_other (by decide) (hother (by decide))) .nil))))))
  have hips : AddsAll dimension
      [(entryPath "country" click.country "ips", .addToSet click.clientIp),
        (entryPath "browser" click.browser "ips", .addToSet click.clientIp),
        (entryPath "os_name" click.osName "ips", .addToSet click.clientIp),
        ("ips", .addToSet click.clientIp)] 0 :=
    .cons (.of_ips (by decide))
      (.cons (.of_ips (by decide))
        (.cons (.of_ips (by decide)) (.cons (.of_other (by decide) (hother (by decide))) .nil)))
  have hreferrer : AddsAll dimension
      (click.referrer.toList.map fun referrer => (entryPath "referrer" referrer "counts", .inc 1)) 0 :=
    addsAll_option fun referrer => by
      have hadds : Adds dimension (pathOf (entryPath "referrer" referrer "counts")) (.inc 1) _ :=
        .of_counts (by decide)
      rwa [if_neg (hother (by decide))] at hadds
  have hbot : AddsAll dimension (click.bot.toList.map fun bot => ("bots" ++ "." ++ bot, .inc 1)) 0 :=
    addsAll_option fun _ => .of_otherMap (by decide) (hother (by decide))
  have hreferrerIps : AddsAll dimension (click.referrer.toList.map fun referrer =>
      (entryPath "referrer" referrer "ips", .addToSet click.clientIp)) 0 :=
    addsAll_option fun _ => .of_ips (by decide)
  have hall := ((((hreferrer.append hcounts).append hbot).append hnumbers).append hreferrerIps).append hips
  simp only [Int.zero_add, Int.add_zero] at hall
  exact hall

/-! ## A run of clicks -/

variable {lib : LegacyClickLib}

/-- What a click is going to be counted under. -/
def familyOf (lib : LegacyClickLib) (context : LegacyClickContext) : V1Dimension → String
  | .browser => ((lib.uaParse context.userAgent).map Prod.fst).getD ""
  | .os => ((lib.uaParse context.userAgent).map Prod.snd).getD ""
  | .country => ((lib.getCountry context.clientIp).map withoutDots).getD "None"

theorem family_of_readClick {context : LegacyClickContext} {click : LegacyClick}
    (h : readClick lib context = .ok click) (dimension : V1Dimension) :
    click.family dimension = familyOf lib context dimension := by
  unfold readClick at h
  split at h
  · cases h
  · cases hparse : lib.uaParse context.userAgent with
    | none => simp [hparse] at h
    | some families =>
      rw [hparse] at h
      dsimp only at h
      split at h
      · cases h
      · cases h
        cases dimension with
        | country => rfl
        | _ => simp [LegacyClick.family, familyOf, hparse]

/-- A country has no dot: they are replaced, and no country is counted as `None`. -/
theorem country_dotless (lib : LegacyClickLib) (context : LegacyClickContext) :
    '.' ∉ (familyOf lib context .country).toList := by
  unfold familyOf
  cases lib.getCountry context.clientIp with
  | none =>
    have hnone : '.' ∉ "None".toList := by decide
    exact hnone
  | some country =>
    simp only [Option.map_some, Option.getD_some, withoutDots, String.toList_ofList, List.mem_map,
      not_exists, not_and]
    intro c _ hdot
    split at hdot
    · cases hdot
    · rename_i hc
      exact hc hdot

/-- One recorded click. -/
theorem handle_adds {context : LegacyClickContext} {dimension : V1Dimension} {root root' : Value}
    (hmap : HasMap dimension root) (h : handle lib context root = .ok root') :
    HasMap dimension root' ∧
      dimensionTotal readers dimension root' = dimensionTotal readers dimension root +
        if '.' ∈ (familyOf lib context dimension).toList then 0 else 1 := by
  unfold handle at h
  obtain ⟨click, hread, hupdate⟩ := Fallible.bind_eq_ok.1 h
  have hread' := Fallible.mapError_eq_ok.1 hread
  have hupdate' := Fallible.mapError_eq_ok.1 hupdate
  rw [← family_of_readClick hread']
  exact (addsAll_updates dimension click).update hmap hupdate'

/-- A run of clicks so far: what a dimension counts has grown by the clicks whose family has no dot. -/
def CountsSoFar (lib : LegacyClickLib) (readers : LegacyReaders) (dimension : V1Dimension) (root : Value)
    (run : Value × List LegacyClickContext) : Prop :=
  HasMap dimension run.1 ∧
    dimensionTotal readers dimension run.1 = dimensionTotal readers dimension root +
      run.2.countP fun context => '.' ∉ (familyOf lib context dimension).toList

theorem countsSoFar_handleAll (contexts : List LegacyClickContext) {dimension : V1Dimension} {root : Value}
    (hmap : HasMap dimension root) :
    CountsSoFar lib readers dimension root (handleAll lib contexts root) := by
  unfold handleAll
  refine List.foldlRecOn (motive := CountsSoFar lib readers dimension root) contexts _ ?_ ?_
  · exact ⟨hmap, by simp⟩
  · rintro ⟨now, recorded⟩ ⟨hnow, htotal⟩ context -
    dsimp only at hnow htotal ⊢
    cases hhandle : handle lib context now with
    | error e => exact ⟨hnow, htotal⟩
    | ok next =>
      obtain ⟨hnext, hadded⟩ := @handle_adds readers _ _ _ _ _ hnow hhandle
      refine ⟨hnext, ?_⟩
      dsimp only
      rw [hadded, htotal, List.countP_append]
      by_cases hdot : '.' ∈ (familyOf lib context dimension).toList
      · simp [hdot]
      · simp [hdot, Int.add_assoc]

/-! ## Whether the counts add up -/

/-- The link was never clicked: no dimension has an entry. -/
def Unclicked (root : Value) : Prop :=
  ∃ fields, root = .doc fields ∧ ∀ (dimension : V1Dimension) (value : Value),
    get? fields dimension.field = some value → value = .doc []

theorem Unclicked.hasMap {root : Value} (h : Unclicked root) (dimension : V1Dimension) :
    HasMap dimension root := by
  obtain ⟨fields, rfl, hfield⟩ := h
  exact ⟨fields, rfl, fun value hvalue => ⟨[], hfield dimension value hvalue⟩⟩

theorem Unclicked.dimensionTotal {root : Value} (h : Unclicked root) (dimension : V1Dimension) :
    dimensionTotal readers dimension root = 0 := by
  obtain ⟨fields, rfl, hfield⟩ := h
  cases hget : get? fields dimension.field with
  | none => simp [Spoo.dimensionTotal, mapOf, hget, countTotal]
  | some value =>
    rw [hfield dimension value hget] at hget
    simp [Spoo.dimensionTotal, mapOf, hget, countTotal]

/-- The stats page of a v1 link shows every recorded click under each dimension, if and only if the parser
puts no dot into the browser or the operating system of a recorded click. -/
theorem v1_counts_add_up_iff (lib : LegacyClickLib) (readers : LegacyReaders)
    (convertCountryName : String → String) (contexts : List LegacyClickContext) {root : Value}
    (hroot : Unclicked root) :
    (∀ dimension, shownClicks readers convertCountryName dimension (handleAll lib contexts root).1 =
        (handleAll lib contexts root).2.length) ↔
      ∀ context ∈ (handleAll lib contexts root).2, ∀ browser osName,
        lib.uaParse context.userAgent = some (browser, osName) →
        '.' ∉ browser.toList ∧ '.' ∉ osName.toList := by
  have hdimension (dimension : V1Dimension) :
      shownClicks readers convertCountryName dimension (handleAll lib contexts root).1 =
          (handleAll lib contexts root).2.length ↔
        ∀ context ∈ (handleAll lib contexts root).2, '.' ∉ (familyOf lib context dimension).toList := by
    obtain ⟨-, htotal⟩ := @countsSoFar_handleAll readers lib contexts dimension root (hroot.hasMap dimension)
    rw [hroot.dimensionTotal, Int.zero_add] at htotal
    rw [shownClicks, sum_v1DimensionRows]
    rw [dimensionTotal] at htotal
    rw [htotal, Int.natCast_inj, List.countP_eq_length]
    simp only [decide_eq_true_eq]
  constructor
  · intro hall context hcontext browser osName hparse
    have hbrowser := (hdimension .browser).1 (hall .browser) context hcontext
    have hos := (hdimension .os).1 (hall .os) context hcontext
    simp only [familyOf, hparse, Option.map_some, Option.getD_some] at hbrowser hos
    exact ⟨hbrowser, hos⟩
  · intro hdotless dimension
    refine (hdimension dimension).2 fun context hcontext => ?_
    cases dimension with
    | country => exact country_dotless lib context
    | browser =>
      cases hparse : lib.uaParse context.userAgent with
      | none => simp [familyOf, hparse]
      | some families => simpa [familyOf, hparse] using (hdotless context hcontext _ _ hparse).1
    | os =>
      cases hparse : lib.uaParse context.userAgent with
      | none => simp [familyOf, hparse]
      | some families => simpa [familyOf, hparse] using (hdotless context hcontext _ _ hparse).2

/-- A parser that knows two browsers. -/
def twoBrowsers : LegacyClickLib where
  url := asciiUrlLib
  uaParse userAgent := some (if userAgent = "mail" then "Mail.ru Chromium Browser" else "Firefox", "Linux")
  getCountry _ := some "St. Lucia"
  isBotRequest _ := false
  getBotName _ := none
  day _ := "2025-01-01"
  second _ := "2025-01-01 00:00:00"
  accepts key := key ≠ "" ∧ key.toList.head? ≠ some '$'

/-- Two clicks of a browser without a dot. -/
def plainClicks : List LegacyClickContext :=
  [⟨false, "10.0.0.1", "firefox", none, 0⟩, ⟨false, "10.0.0.2", "firefox", none, 60000000⟩]

/-- The clicks have plain families, and a country whose dot is replaced. -/
theorem v1_counts_add_up_iff_firefox :
    (handleAll twoBrowsers plainClicks (.doc [])).2 = plainClicks ∧
      shownClicks plainReaders id .country (handleAll twoBrowsers plainClicks (.doc [])).1 =
        (handleAll twoBrowsers plainClicks (.doc [])).2.length := by
  have hrecorded : (handleAll twoBrowsers plainClicks (.doc [])).2 = plainClicks := by decide +kernel
  refine ⟨hrecorded,
    (v1_counts_add_up_iff twoBrowsers plainReaders id _ ⟨[], rfl, fun _ _ h => by cases h⟩).2 ?_ .country⟩
  rw [hrecorded]
  intro context hcontext browser osName hparse
  have hagent : ∀ context ∈ plainClicks, context.userAgent = "firefox" := by decide
  have hfamilies : twoBrowsers.uaParse "firefox" = some ("Firefox", "Linux") := by decide
  rw [hagent context hcontext, hfamilies] at hparse
  cases hparse
  decide

/-- A click of a browser with a dot in its name is recorded, and no browser is shown. -/
theorem dotted_browser_not_shown :
    (handleAll twoBrowsers [⟨false, "10.0.0.1", "mail", none, 0⟩] (.doc [])).2.length = 1 ∧
      shownClicks plainReaders id .browser
        (handleAll twoBrowsers [⟨false, "10.0.0.1", "mail", none, 0⟩] (.doc [])).1 = 0 := by
  decide +kernel

end Spoo
