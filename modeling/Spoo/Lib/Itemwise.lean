import Spoo.Lib.Mongo

/-!
# One item at a time

A call for one item changes the document with its id, in a way that depends on that document alone, and
answers by that document. Such calls for distinct ids, one after the other, change the documents and
answer as if all of them saw the collection as it was.
-/

namespace Itemwise

open Mongo Mongo.Collection

variable {D I K V σ : Type} [Document D I K] [DecidableEq I]

omit [Document D I K] in
/-- The first occurrences are distinct. -/
theorem nodup_eraseDups (ids : List I) : ids.eraseDups.Nodup := by
  induction h : ids.length using Nat.strong_induction_on generalizing ids with
  | _ n ih =>
    cases ids with
    | nil => exact List.nodup_nil
    | cons i ids =>
      rw [List.eraseDups_cons, List.nodup_cons, List.mem_eraseDups]
      have hlt : (ids.filter fun j => !j == i).length < n := by
        have hle := List.length_filter_le (fun j => !j == i) ids
        rw [List.length_cons] at h
        omega
      exact ⟨by simp, ih _ hlt _ rfl⟩

/-- The documents with an id that passes are changed, or removed. -/
def rewrite (passes : I → Bool) (effect : D → Option D) (docs : List D) : List D :=
  docs.filterMap fun d => if passes (Document.id d) then effect d else some d

/-- A call for one item. -/
structure Item (links : σ → Collection D) (call : I → σ → V × σ) (effect : D → Option D)
    (verdict : I → Option D → V) : Prop where
  docs : ∀ i s, (links (call i s).2).docs = rewrite (· = i) effect (links s).docs
  verdict : ∀ i s, (call i s).1 = verdict i ((links s).lookup i)

/-- The calls for several items, one after the other, with their answers. -/
def inTurn (call : I → σ → V × σ) : List I → σ → List V × σ
  | [], s => ([], s)
  | i :: ids, s =>
    let called := call i s
    let rest := inTurn call ids called.2
    (called.1 :: rest.1, rest.2)

variable {effect : D → Option D}

omit [DecidableEq I] in
theorem rewrite_congr {passes : I → Bool} {effect' : D → Option D} {docs : List D}
    (h : ∀ d ∈ docs, passes (Document.id d) = true → effect d = effect' d) :
    rewrite passes effect docs = rewrite passes effect' docs := by
  refine List.filterMap_congr fun d hd => ?_
  split
  · rename_i hpasses
    exact h d hd hpasses
  · rfl

omit [DecidableEq I] in
/-- Where nothing is touched. -/
theorem rewrite_eq_self {passes : I → Bool} {docs : List D}
    (h : ∀ d ∈ docs, passes (Document.id d) = true → effect d = some d) :
    rewrite passes effect docs = docs := by
  rw [rewrite_congr h]
  simp [rewrite]

omit [DecidableEq I] in
/-- Where nothing is removed. -/
theorem rewrite_some (passes : I → Bool) (f : D → D) (docs : List D) :
    rewrite passes (fun d => some (f d)) docs =
      docs.map fun d => if passes (Document.id d) then f d else d := by
  rw [← List.filterMap_eq_map]
  refine List.filterMap_congr fun d _ => ?_
  split <;> simp [*]

omit [DecidableEq I] in
/-- Where nothing is changed. -/
theorem rewrite_removed (passes : I → Bool) (gone : D → Bool) (docs : List D) :
    rewrite passes (fun d => if gone d then none else some d) docs =
      docs.filter fun d => !(passes (Document.id d) && gone d) := by
  induction docs with
  | nil => rfl
  | cons d docs ih =>
    unfold rewrite at ih ⊢
    rw [List.filterMap_cons, List.filter_cons, ih]
    by_cases hd : passes (Document.id d) = true <;> by_cases hgone : gone d = true <;> simp [hd, hgone]

theorem rewrite_cons {i : I} {ids : List I} (hi : i ∉ ids)
    (hid : ∀ d d', effect d = some d' → Document.id d' = Document.id d) (docs : List D) :
    rewrite (· ∈ ids) effect (rewrite (· = i) effect docs) = rewrite (· ∈ i :: ids) effect docs := by
  unfold rewrite
  rw [List.filterMap_filterMap]
  refine List.filterMap_congr fun d _ => ?_
  by_cases hd : Document.id d = i
  · cases heffect : effect d with
    | none => simp [hd]
    | some d' =>
      have hkept : Document.id d' ∉ ids := by
        rw [hid d d' heffect, hd]
        exact hi
      simp [hd, hkept]
  · simp [hd]

/-- A call for another item leaves the document alone. -/
theorem lookup_of_rewrite {c c' : Collection D} {i j : I} (h : c'.docs = rewrite (· = i) effect c.docs)
    (hid : ∀ d d', effect d = some d' → Document.id d' = Document.id d) (hj : j ≠ i) :
    c'.lookup j = c.lookup j := by
  ext d
  rw [lookup_eq_some_iff, lookup_eq_some_iff, h, rewrite, List.mem_filterMap]
  constructor
  · rintro ⟨⟨old, hold, hchanged⟩, rfl⟩
    split at hchanged
    · rename_i hpasses
      have hsame : Document.id d = i := (hid old d hchanged).trans (of_decide_eq_true hpasses)
      exact absurd hsame hj
    · cases hchanged
      exact ⟨hold, rfl⟩
  · rintro ⟨hd, rfl⟩
    exact ⟨⟨d, hd, by simp [hj]⟩, rfl⟩

variable {links : σ → Collection D} {call : I → σ → V × σ} {verdict : I → Option D → V}

theorem docs_inTurn (hitem : Item links call effect verdict)
    (hid : ∀ d d', effect d = some d' → Document.id d' = Document.id d) {ids : List I}
    (hids : ids.Nodup) (s : σ) :
    (links (inTurn call ids s).2).docs = rewrite (· ∈ ids) effect (links s).docs := by
  induction ids generalizing s with
  | nil => simp [inTurn, rewrite]
  | cons i ids ih =>
    rw [List.nodup_cons] at hids
    rw [inTurn, ih hids.2, hitem.docs, rewrite_cons hids.1 hid]

theorem verdicts_inTurn (hitem : Item links call effect verdict)
    (hid : ∀ d d', effect d = some d' → Document.id d' = Document.id d) {ids : List I}
    (hids : ids.Nodup) (s : σ) :
    (inTurn call ids s).1 = ids.map fun i => verdict i ((links s).lookup i) := by
  induction ids generalizing s with
  | nil => rfl
  | cons i ids ih =>
    rw [List.nodup_cons] at hids
    rw [inTurn, ih hids.2, List.map_cons, hitem.verdict]
    refine congrArg (List.cons _) (List.map_congr_left fun j hj => ?_)
    have hne : j ≠ i := fun heq => hids.1 (heq ▸ hj)
    rw [lookup_of_rewrite (hitem.docs i s) hid hne]

end Itemwise
