import Mathlib.Data.List.Nodup

/-!
# Python dictionaries

A `dict` keeps its keys in insertion order and holds one value for each key. Assigning to a
key that is already there replaces its value and keeps its position, which is also what a
repeated key does in a literal such as `{**d, k: v}`.
-/

/-- A Python dictionary. -/
structure PyDict (κ α : Type) where
  entries : List (κ × α)
  nodup : (entries.map Prod.fst).Nodup
  deriving DecidableEq

namespace PyDict

variable {κ α : Type}

/-- The empty dictionary `{}`. -/
def empty : PyDict κ α := ⟨[], List.nodup_nil⟩

/-- The keys, in the order they were inserted. -/
def keys (d : PyDict κ α) : List κ := d.entries.map Prod.fst

/-- The values, in the order of the keys. -/
def values (d : PyDict κ α) : List α := d.entries.map Prod.snd

@[simp] theorem entries_empty : (empty : PyDict κ α).entries = [] := rfl

theorem mem_keys {d : PyDict κ α} {k : κ} : k ∈ d.keys ↔ ∃ e ∈ d.entries, e.1 = k := by
  simp [keys]

variable [DecidableEq κ]

/-- The value under `k`, if there is one. -/
def get? (d : PyDict κ α) (k : κ) : Option α :=
  (d.entries.find? fun e => e.1 = k).map Prod.snd

/-- Python's `d == e`: the same keys with the same values, in any order. -/
def sameItems [DecidableEq α] (d e : PyDict κ α) : Bool :=
  d.entries.length = e.entries.length ∧ ∀ p ∈ d.entries, e.get? p.1 = some p.2

/-- Assign `v` to `k` in a list of entries. -/
def assignEntry (k : κ) (v : α) : List (κ × α) → List (κ × α)
  | [] => [(k, v)]
  | e :: es => if e.1 = k then (k, v) :: es else e :: assignEntry k v es

theorem keys_assignEntry (k : κ) (v : α) (es : List (κ × α)) :
    (assignEntry k v es).map Prod.fst =
      if k ∈ es.map Prod.fst then es.map Prod.fst else es.map Prod.fst ++ [k] := by
  induction es with
  | nil => simp [assignEntry]
  | cons e es ih =>
    by_cases hk : e.1 = k
    · simp [assignEntry, hk]
    · simp only [assignEntry, if_neg hk, List.map_cons, ih, List.mem_cons, Ne.symm hk, false_or]
      split <;> simp

theorem nodup_keys_assignEntry (k : κ) (v : α) {es : List (κ × α)}
    (h : (es.map Prod.fst).Nodup) : ((assignEntry k v es).map Prod.fst).Nodup := by
  rw [keys_assignEntry]
  split
  · exact h
  · rename_i hk
    refine List.nodup_append.2 ⟨h, by simp, fun a ha b hb => ?_⟩
    rw [List.mem_singleton] at hb
    exact fun hab => hk (hb ▸ hab ▸ ha)

/-- The assignment `d[k] = v`. -/
def assign (d : PyDict κ α) (k : κ) (v : α) : PyDict κ α :=
  ⟨assignEntry k v d.entries, nodup_keys_assignEntry k v d.nodup⟩

/-- `d.pop(k, None)`. -/
def pop (d : PyDict κ α) (k : κ) : PyDict κ α :=
  ⟨d.entries.filter fun e => e.1 ≠ k, d.nodup.sublist (List.filter_sublist.map _)⟩

/-- `d.setdefault(k, v)`. -/
def setdefault (d : PyDict κ α) (k : κ) (v : α) : PyDict κ α :=
  if k ∈ d.keys then d else d.assign k v

/-- The literal `{**d, k₁: v₁, k₂: v₂, …}`: the entries are assigned from left to right. -/
def extend (d : PyDict κ α) (kvs : List (κ × α)) : PyDict κ α :=
  kvs.foldl (fun d e => d.assign e.1 e.2) d

/-- The literal `{k₁: v₁, k₂: v₂, …}`. -/
def ofList (kvs : List (κ × α)) : PyDict κ α := empty.extend kvs

@[simp] theorem entries_assign (d : PyDict κ α) (k : κ) (v : α) :
    (d.assign k v).entries = assignEntry k v d.entries := rfl

@[simp] theorem entries_pop (d : PyDict κ α) (k : κ) : (d.pop k).entries = d.entries.filter fun e => e.1 ≠ k := rfl

theorem find?_assignEntry (k k' : κ) (v : α) (es : List (κ × α)) :
    (assignEntry k v es).find? (fun e => e.1 = k') =
      if k = k' then some (k, v) else es.find? fun e => e.1 = k' := by
  induction es with
  | nil => by_cases hk : k = k' <;> simp [assignEntry, hk]
  | cons e es ih =>
    by_cases he : e.1 = k
    · by_cases hk : k = k' <;> simp [assignEntry, he, hk]
    · rw [assignEntry, if_neg he]
      by_cases hk : e.1 = k'
      · subst hk
        simp [Ne.symm he]
      · simp [hk, ih]

theorem mem_assignEntry_self (k : κ) (v : α) (es : List (κ × α)) : (k, v) ∈ assignEntry k v es := by
  induction es with
  | nil => exact List.mem_singleton_self _
  | cons e es ih =>
    unfold assignEntry
    split
    · exact List.mem_cons_self
    · exact List.mem_cons_of_mem _ ih

/-- An entry of another key stays. -/
theorem mem_assignEntry_of_ne {k : κ} {v : α} {e : κ × α} (hne : e.1 ≠ k) :
    ∀ {es : List (κ × α)}, e ∈ es → e ∈ assignEntry k v es
  | e' :: es, he => by
    unfold assignEntry
    rcases List.mem_cons.1 he with rfl | he
    · rw [if_neg hne]
      exact List.mem_cons_self
    · split
      · exact List.mem_cons_of_mem _ he
      · exact List.mem_cons_of_mem _ (mem_assignEntry_of_ne hne he)

/-- An entry is the one that is assigned, or was there. -/
theorem eq_or_mem_of_mem_assignEntry {k : κ} {v : α} {e : κ × α} :
    ∀ {es : List (κ × α)}, e ∈ assignEntry k v es → e = (k, v) ∨ e ∈ es
  | [], he => .inl (List.mem_singleton.1 he)
  | e' :: es, he => by
    unfold assignEntry at he
    split at he
    · exact (List.mem_cons.1 he).imp_right (List.mem_cons_of_mem _)
    · rcases List.mem_cons.1 he with rfl | he
      · exact .inr List.mem_cons_self
      · exact (eq_or_mem_of_mem_assignEntry he).imp_right (List.mem_cons_of_mem _)

/-- What holds of the values, and of the one that is assigned, holds of the values afterwards. -/
theorem forall_values_assign {P : α → Prop} {d : PyDict κ α} {k : κ} {v : α} (hd : ∀ w ∈ d.values, P w)
    (hv : P v) : ∀ w ∈ (d.assign k v).values, P w := by
  intro w hw
  obtain ⟨entry, hentry, rfl⟩ := List.mem_map.1 hw
  rcases eq_or_mem_of_mem_assignEntry hentry with rfl | hentry
  · exact hv
  · exact hd _ (List.mem_map_of_mem hentry)

theorem get?_assign (d : PyDict κ α) (k k' : κ) (v : α) :
    (d.assign k v).get? k' = if k = k' then some v else d.get? k' := by
  unfold get?
  rw [entries_assign, find?_assignEntry]
  split <;> rfl

theorem mem_entries_of_get? {d : PyDict κ α} {k : κ} {v : α} (h : d.get? k = some v) :
    (k, v) ∈ d.entries := by
  unfold get? at h
  obtain ⟨e, he, rfl⟩ := Option.map_eq_some_iff.1 h
  have hk : e.1 = k := by simpa using List.find?_some he
  exact hk ▸ List.mem_of_find?_eq_some he

@[simp] theorem mem_keys_assign {d : PyDict κ α} {k k' : κ} {v : α} :
    k' ∈ (d.assign k v).keys ↔ k' ∈ d.keys ∨ k' = k := by
  have hkeys : (d.assign k v).keys = if k ∈ d.keys then d.keys else d.keys ++ [k] :=
    keys_assignEntry k v d.entries
  rw [hkeys]
  split
  · rename_i hk
    exact ⟨.inl, fun h => h.elim id fun he => he ▸ hk⟩
  · rw [List.mem_append, List.mem_singleton]

theorem assignEntry_of_not_mem {k : κ} {v : α} {es : List (κ × α)}
    (h : k ∉ es.map Prod.fst) : assignEntry k v es = es ++ [(k, v)] := by
  induction es with
  | nil => rfl
  | cons e es ih =>
    simp only [List.map_cons, List.mem_cons, not_or] at h
    simp [assignEntry, Ne.symm h.1, ih h.2]

theorem setdefault_of_mem {d : PyDict κ α} {k : κ} {v : α} (h : k ∈ d.keys) :
    d.setdefault k v = d := if_pos h

theorem entries_setdefault_of_not_mem {d : PyDict κ α} {k : κ} {v : α} (h : k ∉ d.keys) :
    (d.setdefault k v).entries = d.entries ++ [(k, v)] := by
  rw [setdefault, if_neg h, entries_assign, assignEntry_of_not_mem h]

@[simp] theorem mem_keys_setdefault {d : PyDict κ α} {k k' : κ} {v : α} :
    k' ∈ (d.setdefault k v).keys ↔ k' ∈ d.keys ∨ k' = k := by
  by_cases h : k ∈ d.keys
  · rw [setdefault_of_mem h]
    exact ⟨.inl, fun h' => h'.elim id fun he => he ▸ h⟩
  · rw [setdefault, if_neg h, mem_keys_assign]

theorem mem_entries_setdefault {d : PyDict κ α} {k : κ} {v : α} {e : κ × α}
    (h : e ∈ (d.setdefault k v).entries) : e ∈ d.entries ∨ e = (k, v) := by
  by_cases hk : k ∈ d.keys
  · exact .inl (setdefault_of_mem hk ▸ h)
  · simpa [entries_setdefault_of_not_mem hk] using h

theorem get?_eq_none_of_not_mem {d : PyDict κ α} {k : κ} (h : k ∉ d.keys) : d.get? k = none := by
  cases hget : d.get? k with
  | none => rfl
  | some v => exact absurd (List.mem_map_of_mem (mem_entries_of_get? hget)) h

theorem isSome_get?_of_mem {d : PyDict κ α} {k : κ} (h : k ∈ d.keys) : (d.get? k).isSome = true := by
  obtain ⟨e, he, hk⟩ := mem_keys.1 h
  rw [get?, Option.isSome_map, List.find?_isSome]
  exact ⟨e, he, decide_eq_true hk⟩

/-- What is there stays, and what is given comes in where nothing is. -/
theorem get?_setdefault (d : PyDict κ α) (k k' : κ) (v : α) :
    (d.setdefault k v).get? k' = (d.get? k').or (if k = k' then some v else none) := by
  by_cases hmem : k ∈ d.keys
  · rw [setdefault_of_mem hmem]
    split
    · rename_i hk
      obtain ⟨w, hw⟩ := Option.isSome_iff_exists.1 (isSome_get?_of_mem (hk ▸ hmem))
      rw [hw, Option.some_or]
    · rw [Option.or_none]
  · rw [setdefault, if_neg hmem, get?_assign]
    split
    · rename_i hk
      rw [get?_eq_none_of_not_mem (hk ▸ hmem), Option.none_or]
    · rw [Option.or_none]

@[simp] theorem extend_nil (d : PyDict κ α) : d.extend [] = d := rfl

@[simp] theorem extend_cons (d : PyDict κ α) (k : κ) (v : α) (kvs : List (κ × α)) :
    d.extend ((k, v) :: kvs) = (d.assign k v).extend kvs := rfl

theorem mem_keys_extend {d : PyDict κ α} {kvs : List (κ × α)} {k : κ} :
    k ∈ (d.extend kvs).keys ↔ k ∈ d.keys ∨ k ∈ kvs.map Prod.fst := by
  induction kvs generalizing d with
  | nil => simp [extend]
  | cons e kvs ih =>
    have hstep : d.extend (e :: kvs) = (d.assign e.1 e.2).extend kvs := rfl
    rw [hstep, ih, mem_keys_assign, List.map_cons, List.mem_cons, or_assoc]

theorem mem_keys_ofList {kvs : List (κ × α)} {k : κ} : k ∈ (ofList kvs).keys ↔ k ∈ kvs.map Prod.fst := by
  have hempty : k ∉ (empty : PyDict κ α).keys := List.not_mem_nil
  rw [ofList, mem_keys_extend, or_iff_right hempty]

/-- The last value that the pairs give to a key. -/
def lastValue (kvs : List (κ × α)) (k : κ) : Option α := (kvs.reverse.find? fun e => e.1 = k).map Prod.snd

theorem lastValue_cons (e : κ × α) (kvs : List (κ × α)) (k : κ) :
    lastValue (e :: kvs) k = (lastValue kvs k).or (if e.1 = k then some e.2 else none) := by
  rw [lastValue, List.reverse_cons, List.find?_append, Option.map_or, lastValue]
  by_cases hk : e.1 = k <;> simp [hk]

theorem lastValue_append (kvs kvs' : List (κ × α)) (k : κ) :
    lastValue (kvs ++ kvs') k = (lastValue kvs' k).or (lastValue kvs k) := by
  rw [lastValue, List.reverse_append, List.find?_append, Option.map_or, lastValue, lastValue]

theorem get?_extend (d : PyDict κ α) (kvs : List (κ × α)) (k : κ) :
    (d.extend kvs).get? k = (lastValue kvs k).or (d.get? k) := by
  induction kvs generalizing d with
  | nil => rfl
  | cons e kvs ih =>
    rw [extend_cons, ih, get?_assign, lastValue_cons, Option.or_assoc]
    by_cases hk : e.1 = k <;> simp [hk]

/-- Of two values for a key, the later one stays. -/
theorem get?_ofList_eq (kvs : List (κ × α)) (k : κ) : (ofList kvs).get? k = lastValue kvs k := by
  rw [ofList, get?_extend]
  exact Option.or_none

theorem get?_extend_map {keys : List κ} (f : κ → α) (k : κ) : ∀ d : PyDict κ α,
    (d.extend (keys.map fun k => (k, f k))).get? k = if k ∈ keys then some (f k) else d.get? k := by
  induction keys with
  | nil => exact fun d => rfl
  | cons k' keys ih =>
    intro d
    rw [List.map_cons, extend_cons, ih, get?_assign]
    by_cases hk : k' = k
    · simp [hk]
    · simp [hk, Ne.symm hk]

/-- A dictionary of values that the keys determine. -/
theorem get?_ofList_map {keys : List κ} (f : κ → α) (k : κ) :
    (ofList (keys.map fun k => (k, f k))).get? k = if k ∈ keys then some (f k) else none :=
  get?_extend_map f k empty

/-- New keys come in behind the others. -/
theorem entries_extend_of_nodup {kvs : List (κ × α)} : ∀ {d : PyDict κ α},
    ((d.entries ++ kvs).map Prod.fst).Nodup → (d.extend kvs).entries = d.entries ++ kvs := by
  induction kvs with
  | nil => exact fun _ => (List.append_nil _).symm
  | cons e kvs ih =>
    intro d hnodup
    have hnew : e.1 ∉ d.entries.map Prod.fst := by
      rw [List.map_append, List.map_cons, List.nodup_append] at hnodup
      exact fun hmem => hnodup.2.2 _ hmem _ List.mem_cons_self rfl
    have hassign : (d.assign e.1 e.2).entries = d.entries ++ [e] := by
      rw [entries_assign, assignEntry_of_not_mem hnew]
    rw [extend_cons, ih (by rwa [hassign, List.append_assoc]), hassign, List.append_assoc]
    rfl

/-- Without a key that is there twice, the dictionary has the items as they are given. -/
theorem entries_ofList {kvs : List (κ × α)} (hnodup : (kvs.map Prod.fst).Nodup) : (ofList kvs).entries = kvs :=
  entries_extend_of_nodup hnodup

/-- A field of which the key is there once is found. -/
theorem get?_ofList {kvs : List (κ × α)} {k : κ} {v : α} (hnodup : (kvs.map Prod.fst).Nodup)
    (h : kvs.find? (fun e => e.1 = k) = some (k, v)) : (ofList kvs).get? k = some v := by
  rw [get?, entries_ofList hnodup, h]
  rfl

theorem get?_ofList_eq_none {kvs : List (κ × α)} {k : κ} (hnodup : (kvs.map Prod.fst).Nodup)
    (h : kvs.find? (fun e => e.1 = k) = none) : (ofList kvs).get? k = none := by
  rw [get?, entries_ofList hnodup, h]
  rfl

omit [DecidableEq κ] in
theorem eq_of_entries {d e : PyDict κ α} (h : d.entries = e.entries) : d = e := by
  cases d
  cases e
  cases h
  rfl

theorem ofList_entries (d : PyDict κ α) : ofList d.entries = d := eq_of_entries (entries_ofList d.nodup)

section

variable {κ' : Type} [DecidableEq κ']

/-- `{rename(k): v for k, v in d.items() if …}`: the items of which the key has a new name. -/
def renameKeys (rename : κ → Option κ') (d : PyDict κ α) : PyDict κ' α :=
  ofList (d.entries.filterMap fun e => (rename e.1).map (·, e.2))

theorem get?_extend_renamed {rename : κ → Option κ'} {k : κ} {k' : κ'} (hk : rename k = some k')
    (hinj : ∀ j, rename j = some k' → j = k) : ∀ {es : List (κ × α)} (d : PyDict κ' α),
    (es.map Prod.fst).Nodup →
      (d.extend (es.filterMap fun e => (rename e.1).map (·, e.2))).get? k' =
        ((es.find? fun e => e.1 = k).map Prod.snd).or (d.get? k')
  | [], d, _ => rfl
  | e :: es, d, hnodup => by
    rw [List.map_cons, List.nodup_cons] at hnodup
    rcases hname : rename e.1 with _ | j
    · have hne : e.1 ≠ k := by
        intro he
        rw [he, hk] at hname
        cases hname
      rw [List.filterMap_cons_none (by rw [hname]; rfl), get?_extend_renamed hk hinj d hnodup.2,
        List.find?_cons_of_neg (by simp [hne])]
    · have hcons : (e :: es).filterMap (fun e => (rename e.1).map (·, e.2)) =
          (j, e.2) :: es.filterMap fun e => (rename e.1).map (·, e.2) :=
        List.filterMap_cons_some (by rw [hname]; rfl)
      rw [hcons, extend_cons, get?_extend_renamed hk hinj _ hnodup.2, get?_assign]
      by_cases he : e.1 = k
      · have hj : j = k' := by
          rw [he, hk] at hname
          exact (Option.some.inj hname).symm
        have hrest : es.find? (fun e => e.1 = k) = none := by
          rw [List.find?_eq_none]
          intro e' he' heq
          exact hnodup.1 (he ▸ of_decide_eq_true heq ▸ List.mem_map_of_mem he')
        rw [if_pos hj, hrest, List.find?_cons_of_pos (by simp [he])]
        rfl
      · have hj : j ≠ k' := fun hj => he (hinj _ (hj ▸ hname))
        rw [if_neg hj, List.find?_cons_of_neg (by simp [he])]

/-- A key that no other one is renamed to keeps its value. -/
theorem get?_renameKeys {rename : κ → Option κ'} {d : PyDict κ α} {k : κ} {k' : κ'}
    (hk : rename k = some k') (hinj : ∀ j, rename j = some k' → j = k) :
    (d.renameKeys rename).get? k' = d.get? k := by
  rw [renameKeys, ofList, get?_extend_renamed hk hinj empty d.nodup]
  exact Option.or_none

end

end PyDict
