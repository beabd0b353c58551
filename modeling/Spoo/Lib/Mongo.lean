import Mathlib.Data.List.Basic
import Mathlib.Data.List.Dedup
import Mathlib.Data.List.MinMax
import Mathlib.Logic.Function.Basic
import Spoo.Lib.PyDict

/-!
# A document store

The part of MongoDB a repository layer relies on: fields that may be missing or null, filter
documents, the update operators as functions on documents, and collections with a unique
immutable `_id`. Filters are Python dictionaries, so that the way a literal such as
`{**filter, "$or": [...]}` composes decides which clauses a query keeps.
-/

namespace Mongo

/-! ## Fields -/

/-- A field of a stored document. -/
inductive DocField (α : Type) where
  | missing
  | null
  | value (a : α)
  deriving DecidableEq, Repr

namespace DocField

variable {α : Type}

/-- What a document model with a `None` default reads. -/
def toOption : DocField α → Option α
  | value a => some a
  | _ => none

/-- What storing `None` or a value leaves in the field. -/
def ofOption : Option α → DocField α
  | some a => value a
  | none => null

/-- `{field: {"$exists": True}}`. -/
def isPresent : DocField α → Bool
  | missing => false
  | _ => true

/-- `{field: {"$type": "array"}}` on a field that holds nothing but arrays. -/
def isArray {β : Type} : DocField (List β) → Bool
  | value _ => true
  | _ => false

/-- `{field: v}` for a value other than null, on a scalar field. -/
def is [DecidableEq α] (f : DocField α) (v : α) : Bool := f = value v

/-- `{field: v}` for a scalar `v`, on an array field: some element is `v`. -/
def has {β : Type} [DecidableEq β] (f : DocField (List β)) (v : β) : Bool :=
  match f with
  | value xs => decide (v ∈ xs)
  | _ => false

/-- `{field: {"$in": vs}}` for values other than null, on a scalar field. -/
def isIn [DecidableEq α] (f : DocField α) (vs : List α) : Bool :=
  match f with
  | value a => decide (a ∈ vs)
  | _ => false

/-- The elements of an array field, none where there is no array. -/
def elems {β : Type} : DocField (List β) → List β
  | value xs => xs
  | _ => []

/-- `{field: {"$lte": v}}`. Comparison is among values of the type of `v`, so that a missing field and
null are not compared. -/
def lte [LE α] [DecidableLE α] (f : DocField α) (v : α) : Bool :=
  match f with
  | value a => decide (a ≤ v)
  | _ => false

/-- `{field: {"$lt": v}}`. -/
def lt [LT α] [DecidableLT α] (f : DocField α) (v : α) : Bool :=
  match f with
  | value a => decide (a < v)
  | _ => false

/-- `{field: {"$gt": v}}`. -/
def gt [LT α] [DecidableLT α] (f : DocField α) (v : α) : Bool :=
  match f with
  | value a => decide (v < a)
  | _ => false

/-- `{field: {"$ne": None}}`: null also equals a missing field. -/
def isNotNull : DocField α → Bool
  | value _ => true
  | _ => false

/-- `{"$gte": ["$f", "$g"]}` in an expression, where a missing field sorts before null and null before
every number. -/
def exprGte [LE α] [DecidableLE α] : DocField α → DocField α → Bool
  | _, missing => true
  | missing, _ => false
  | _, null => true
  | null, value _ => false
  | value a, value b => decide (b ≤ a)

/-- `{"$pull": {field: v}}`. -/
def pull {β : Type} [DecidableEq β] (v : β) : DocField (List β) → DocField (List β)
  | value xs => value (xs.filter (· ≠ v))
  | f => f

@[simp] theorem has_iff {β : Type} [DecidableEq β] (f : DocField (List β)) (v : β) :
    f.has v = true ↔ v ∈ f.elems := by
  cases f <;> simp [has, elems]

@[simp] theorem elems_pull {β : Type} [DecidableEq β] (f : DocField (List β)) (v : β) :
    (f.pull v).elems = f.elems.filter (· ≠ v) := by
  cases f <;> simp [pull, elems]

end DocField

/-- `{"$setUnion": [xs, ys]}`: the elements of both without repetition. MongoDB leaves the
order open. -/
def setUnion {α : Type} [DecidableEq α] (xs ys : List α) : List α := (xs ++ ys).dedup

@[simp] theorem mem_setUnion {α : Type} [DecidableEq α] {xs ys : List α} {x : α} :
    x ∈ setUnion xs ys ↔ x ∈ xs ∨ x ∈ ys := by
  simp [setUnion]

/-! ## Filters -/

/-- A key of a filter document: a field path or a logical operator. -/
inductive Key (F : Type) where
  | field (f : F)
  | or
  | nor
  | and
  | expr
  deriving DecidableEq

/-- A filter document over field paths `F`: each key with the test its value stands for. -/
abbrev Query (F D : Type) : Type := PyDict (Key F) (D → Bool)

namespace Query

variable {F D : Type}

/-- A document matches a filter when it passes the test under every key. -/
def Matches (q : Query F D) (d : D) : Bool := q.entries.all fun e => e.2 d

/-- The entry `field: clause`. -/
def field (f : F) (p : D → Bool) : Key F × (D → Bool) := (.field f, p)

/-- The entry `"$or": [q₁, q₂, …]`. -/
def or (qs : List (Query F D)) : Key F × (D → Bool) := (.or, fun d => qs.any (·.Matches d))

/-- The entry `"$nor": [q₁, q₂, …]`. -/
def nor (qs : List (Query F D)) : Key F × (D → Bool) :=
  (.nor, fun d => !qs.any (·.Matches d))

/-- The entry `"$and": [q₁, q₂, …]`. -/
def and (qs : List (Query F D)) : Key F × (D → Bool) := (.and, fun d => qs.all (·.Matches d))

/-- The entry `"$expr": condition`. -/
def expr (condition : D → Bool) : Key F × (D → Bool) := (.expr, condition)

end Query

namespace Query

variable {F D : Type} [DecidableEq F] {d : D}

/-- A new key is one more test. -/
theorem matches_assign {q : Query F D} {k : Key F} {p : D → Bool} (h : k ∉ q.keys) :
    Query.Matches (q.assign k p) d = (q.Matches d && p d) := by
  simp [Matches, PyDict.assignEntry_of_not_mem h]

theorem matches_single (e : Key F × (D → Bool)) :
    Query.Matches (PyDict.ofList [e]) d = e.2 d := by
  obtain ⟨k, p⟩ := e
  simp [Matches, PyDict.ofList, PyDict.assignEntry]

theorem matches_pair {e e' : Key F × (D → Bool)} (h : e'.1 ≠ e.1) :
    Query.Matches (PyDict.ofList [e, e']) d = (e.2 d && e'.2 d) := by
  have hkey : e'.1 ∉ PyDict.keys (PyDict.ofList [e]) := by
    obtain ⟨k, p⟩ := e
    simpa [PyDict.keys, PyDict.ofList, PyDict.assignEntry] using h
  calc Query.Matches (PyDict.ofList [e, e']) d
      = (Query.Matches (PyDict.ofList [e]) d && e'.2 d) := matches_assign hkey
    _ = (e.2 d && e'.2 d) := by rw [matches_single]

/-- Entries under different keys are one test each. -/
theorem matches_ofList {es : List (Key F × (D → Bool))} (hnodup : (es.map Prod.fst).Nodup) :
    Query.Matches (PyDict.ofList es) d = es.all (·.2 d) := by
  rw [Matches, PyDict.entries_ofList hnodup]

/-- Entries under new keys are one more test each. -/
theorem matches_extend {q : Query F D} {es : List (Key F × (D → Bool))}
    (hnodup : ((q.entries ++ es).map Prod.fst).Nodup) :
    Query.Matches (q.extend es) d = (q.Matches d && es.all (·.2 d)) := by
  rw [Matches, PyDict.entries_extend_of_nodup hnodup, List.all_append, Matches]

end Query

/-! ## Collections -/

/-- Documents carry an `_id`, and the key a unique index of their collection is over. -/
class Document (D : Type) (I K : outParam Type) where
  id : D → I
  key : D → K

section

variable {D I K : Type} [Document D I K]

/-- An update of a document. It cannot change the `_id`. -/
structure Update (D : Type) {I K : Type} [Document D I K] where
  apply : D → D
  id_apply : ∀ d, Document.id (apply d) = Document.id d

/-- An update that leaves the indexed key alone, so that no write of it can be refused. -/
structure KeyedUpdate (D : Type) {I K : Type} [Document D I K] extends Update D where
  key_apply : ∀ d, Document.key (apply d) = Document.key d

/-- The documents of a collection, in natural order. -/
structure Collection (D : Type) {I K : Type} [Document D I K] where
  docs : List D
  nodup_id : (docs.map Document.id).Nodup
  nodup_key : (docs.map Document.key).Nodup

namespace Collection

/-- A collection without documents. -/
def empty : Collection D := ⟨[], List.nodup_nil, List.nodup_nil⟩

@[simp] theorem docs_empty : (empty : Collection D).docs = [] := rfl

/-- A collection with one document. -/
def single (d : D) : Collection D := ⟨[d], List.nodup_singleton _, List.nodup_singleton _⟩

@[simp] theorem docs_single (d : D) : (single d).docs = [d] := rfl

/-- Apply `u` to the documents that pass `q`. -/
def applyWhere (q : D → Bool) (u : Update D) (d : D) : D := if q d then u.apply d else d

/-- A field that the update leaves alone. -/
theorem field_applyWhere {β : Type} (field : D → β) (q : D → Bool) (u : Update D)
    (hu : ∀ d, field (u.apply d) = field d) (d : D) : field (applyWhere q u d) = field d := by
  unfold applyWhere
  split
  · exact hu d
  · rfl

@[simp] theorem id_applyWhere (q : D → Bool) (u : Update D) (d : D) :
    Document.id (applyWhere q u d) = Document.id d := field_applyWhere Document.id q u u.id_apply d

theorem key_applyWhere (q : D → Bool) (u : KeyedUpdate D) (d : D) :
    Document.key (applyWhere q u.toUpdate d) = Document.key d :=
  field_applyWhere Document.key q u.toUpdate u.key_apply d

theorem applyWhere_of_matches {q : D → Bool} (u : Update D) {d : D} (h : q d = true) :
    applyWhere q u d = u.apply d := if_pos h

theorem applyWhere_of_not_matches {q : D → Bool} (u : Update D) {d : D} (h : q d = false) :
    applyWhere q u d = d := if_neg (by simp [h])

/-- `update_many` with an update that leaves the indexed key alone. -/
def updateMany (c : Collection D) (q : D → Bool) (u : KeyedUpdate D) : Collection D where
  docs := c.docs.map (applyWhere q u.toUpdate)
  nodup_id := by simpa [Function.comp_def] using c.nodup_id
  nodup_key := by simpa [Function.comp_def, key_applyWhere] using c.nodup_key

/-- `update_many`: `none` is a `DuplicateKeyError`, and nothing is written. -/
def updateManyUnique [DecidableEq K] (c : Collection D) (q : D → Bool) (u : Update D) :
    Option (Collection D) :=
  if h : ((c.docs.map (applyWhere q u)).map Document.key).Nodup then
    some ⟨c.docs.map (applyWhere q u), by simpa [Function.comp_def] using c.nodup_id, h⟩
  else none

/-- `update_many(…).modified_count`. -/
def modifiedCount [DecidableEq D] (c : Collection D) (q : D → Bool) (u : Update D) : Nat :=
  c.docs.countP fun d => q d && decide (u.apply d ≠ d)

/-- `find_one`. -/
def findOne (c : Collection D) (q : D → Bool) : Option D := c.docs.find? q

/-- `find`. -/
def find (c : Collection D) (q : D → Bool) : List D := c.docs.filter q

/-- `delete_many`, and `delete_one` where the filter fixes the `_id`. -/
def deleteMany (c : Collection D) (q : D → Bool) : Collection D where
  docs := c.docs.filter fun d => !q d
  nodup_id := c.nodup_id.sublist (List.filter_sublist.map _)
  nodup_key := c.nodup_key.sublist (List.filter_sublist.map _)

/-- `insert_one`: `none` is a `DuplicateKeyError`. -/
def insertOne [DecidableEq I] [DecidableEq K] (c : Collection D) (d : D) :
    Option (Collection D) :=
  if h : Document.id d ∉ c.docs.map Document.id ∧ Document.key d ∉ c.docs.map Document.key then
    some {
      docs := c.docs ++ [d]
      nodup_id := by
        rw [List.map_append, List.map_singleton, ← List.concat_eq_append]
        exact List.Nodup.concat h.1 c.nodup_id
      nodup_key := by
        rw [List.map_append, List.map_singleton, ← List.concat_eq_append]
        exact List.Nodup.concat h.2 c.nodup_key }
  else none

theorem insertOne_eq_some [DecidableEq I] [DecidableEq K] {c c' : Collection D} {d : D}
    (h : c.insertOne d = some c') :
    Document.id d ∉ c.docs.map Document.id ∧ Document.key d ∉ c.docs.map Document.key ∧
      c'.docs = c.docs ++ [d] := by
  unfold insertOne at h
  split at h
  · rename_i hnew
    exact ⟨hnew.1, hnew.2, (Option.some.inj h) ▸ rfl⟩
  · cases h

/-- What a read finds after an insert. -/
theorem length_find_insertOne [DecidableEq I] [DecidableEq K] {c c' : Collection D} {d : D}
    (h : c.insertOne d = some c') (q : D → Bool) :
    (c'.find q).length = (c.find q).length + if q d then 1 else 0 := by
  obtain ⟨-, -, hdocs⟩ := insertOne_eq_some h
  unfold find
  rw [hdocs, List.filter_append, List.length_append]
  cases hd : q d <;> simp [hd]

/-- A write that leaves alone what a read asks for. -/
theorem length_find_of_docs {c c' : Collection D} {f : D → D} {q : D → Bool}
    (h : c'.docs = c.docs.map f) (hq : ∀ d, q (f d) = q d) :
    (c'.find q).length = (c.find q).length := by
  unfold find
  rw [h, List.filter_map, List.length_map]
  simp only [Function.comp_def, hq]

/-- A delete leaves no more to find. -/
theorem length_find_deleteMany_le (c : Collection D) (q p : D → Bool) :
    ((c.deleteMany p).find q).length ≤ (c.find q).length :=
  (List.filter_sublist.filter q).length_le

theorem mem_updateMany {c : Collection D} {q : D → Bool} {u : KeyedUpdate D} {d : D} :
    d ∈ (c.updateMany q u).docs ↔ ∃ d₀ ∈ c.docs, applyWhere q u.toUpdate d₀ = d := by
  simp [updateMany]

theorem docs_updateManyUnique [DecidableEq K] {c c' : Collection D} {q : D → Bool}
    {u : Update D} (h : c.updateManyUnique q u = some c') :
    c'.docs = c.docs.map (applyWhere q u) := by
  unfold updateManyUnique at h
  split at h
  · exact (Option.some.inj h) ▸ rfl
  · cases h

/-- A write depends on the documents that its filter selects. -/
theorem updateManyUnique_congr [DecidableEq K] {c : Collection D} {q q' : D → Bool} {u : Update D}
    (h : ∀ d ∈ c.docs, q d = q' d) : c.updateManyUnique q u = c.updateManyUnique q' u := by
  have hdocs : c.docs.map (applyWhere q u) = c.docs.map (applyWhere q' u) :=
    List.map_congr_left fun d hd => by rw [applyWhere, applyWhere, h d hd]
  simp only [updateManyUnique, hdocs]

/-- Whether a write is refused depends on the keys of the documents alone. -/
theorem isSome_updateManyUnique_of_docs [DecidableEq K] {c c' : Collection D} {f : D → D}
    {q : D → Bool} {u : Update D} (h : c'.docs = c.docs.map f) (hq : ∀ d, q (f d) = q d)
    (hkey : ∀ d, Document.key (f d) = Document.key d)
    (hu : ∀ d, Document.key (u.apply (f d)) = Document.key (u.apply d)) :
    (c'.updateManyUnique q u).isSome = (c.updateManyUnique q u).isSome := by
  have hkeys : (c'.docs.map (applyWhere q u)).map Document.key =
      (c.docs.map (applyWhere q u)).map Document.key := by
    rw [h]
    simp only [List.map_map]
    refine List.map_congr_left fun d _ => ?_
    simp only [Function.comp_apply, applyWhere, hq]
    split
    · exact hu d
    · exact hkey d
  have hsome (c : Collection D) : (c.updateManyUnique q u).isSome =
      decide ((c.docs.map (applyWhere q u)).map Document.key).Nodup := by
    unfold updateManyUnique
    split
    · rename_i hnd
      exact (decide_eq_true hnd).symm
    · rename_i hnd
      exact (decide_eq_false hnd).symm
  rw [hsome, hsome]
  simp only [hkeys]

/-- A write that leaves the indexed key alone is never refused. -/
theorem updateManyUnique_of_key [DecidableEq K] (c : Collection D) (q : D → Bool)
    (u : KeyedUpdate D) : c.updateManyUnique q u.toUpdate = some (c.updateMany q u) := by
  have h : ((c.docs.map (applyWhere q u.toUpdate)).map Document.key).Nodup :=
    (c.updateMany q u).nodup_key
  rw [updateManyUnique, dif_pos h]
  rfl

variable [DecidableEq I]

/-- The document with a given `_id`. -/
def lookup (c : Collection D) (i : I) : Option D := c.findOne fun d => Document.id d = i

private theorem find?_eq_of_nodup {α : Type} [DecidableEq α] (f : D → α) {d : D} :
    ∀ {docs : List D}, (docs.map f).Nodup → d ∈ docs → docs.find? (fun e => f e = f d) = some d
  | e :: docs, hnd, hd => by
    rw [List.map_cons, List.nodup_cons] at hnd
    rcases List.mem_cons.1 hd with rfl | hd
    · simp
    · have hne : f e ≠ f d := fun he => hnd.1 (he ▸ List.mem_map_of_mem hd)
      simpa [hne] using find?_eq_of_nodup f hnd.2 hd

theorem lookup_eq_some_iff {c : Collection D} {i : I} {d : D} :
    c.lookup i = some d ↔ d ∈ c.docs ∧ Document.id d = i := by
  constructor
  · intro h
    exact ⟨List.mem_of_find?_eq_some h, by simpa using List.find?_some h⟩
  · rintro ⟨hd, rfl⟩
    exact find?_eq_of_nodup Document.id c.nodup_id hd

/-- An insert adds one document. -/
theorem lookup_insertOne [DecidableEq K] {c c' : Collection D} {d : D}
    (h : c.insertOne d = some c') (i : I) :
    c'.lookup i = (c.lookup i).or (if Document.id d = i then some d else none) := by
  obtain ⟨-, -, hdocs⟩ := insertOne_eq_some h
  rw [lookup, findOne, hdocs, List.find?_append]
  by_cases hid : Document.id d = i
  · simp [lookup, findOne, hid]
  · simp [lookup, findOne, hid]

/-- An insert that is not refused takes an `_id` that no document has. -/
theorem exists_of_insertOne [DecidableEq K] {c c' : Collection D} {d : D}
    (h : c.insertOne d = some c') :
    c.lookup (Document.id d) = none ∧ c'.lookup (Document.id d) = some d ∧
      ∀ i, i ≠ Document.id d → c'.lookup i = c.lookup i := by
  have hfree : c.lookup (Document.id d) = none := by
    cases hlookup : c.lookup (Document.id d) with
    | none => rfl
    | some old =>
      obtain ⟨hmem, hid⟩ := lookup_eq_some_iff.1 hlookup
      exact absurd (hid ▸ List.mem_map_of_mem hmem) (insertOne_eq_some h).1
  refine ⟨hfree, ?_, fun i hi => ?_⟩
  · rw [lookup_insertOne h, hfree, Option.none_or, if_pos rfl]
  · rw [lookup_insertOne h, if_neg (Ne.symm hi), Option.or_none]

/-- An insert is refused for an `_id` or a key that is taken, and for nothing else. -/
theorem isSome_insertOne_iff [DecidableEq K] {c : Collection D} {d : D} :
    (c.insertOne d).isSome = true ↔
      (∀ e ∈ c.docs, Document.id e ≠ Document.id d) ∧ ∀ e ∈ c.docs, Document.key e ≠ Document.key d := by
  unfold insertOne
  split
  · rename_i hnew
    simpa using hnew
  · rename_i htaken
    simpa using htaken

/-- Deleting what was inserted undoes the insert. -/
theorem deleteMany_of_insertOne [DecidableEq K] {c c' : Collection D} {d : D}
    (h : c.insertOne d = some c') {q : D → Bool}
    (hq : ∀ e, q e = true ↔ Document.id e = Document.id d) : c'.deleteMany q = c := by
  obtain ⟨hid, -, hdocs⟩ := insertOne_eq_some h
  have hkept : ∀ e ∈ c.docs, (!q e) = true := by
    intro e he
    rw [Bool.not_eq_true', Bool.eq_false_iff, Ne, hq e]
    intro hsame
    exact hid (hsame ▸ List.mem_map_of_mem he)
  have hgone : q d = true := (hq d).2 rfl
  have hrest : c'.docs.filter (fun e => !q e) = c.docs := by
    rw [hdocs, List.filter_append, List.filter_eq_self.2 hkept]
    simp [hgone]
  obtain ⟨docs, hids, hkeys⟩ := c
  simp only [deleteMany, Collection.mk.injEq]
  exact hrest

/-- A write that maps the documents and keeps their ids maps each lookup. -/
theorem lookup_map_of_docs {c c' : Collection D} {f : D → D}
    (h : c'.docs = c.docs.map f) (hid : ∀ d, Document.id (f d) = Document.id d) (i : I) :
    c'.lookup i = (c.lookup i).map f := by
  simp only [lookup, findOne, h, List.find?_map, Function.comp_def, hid]

theorem lookup_updateMany (c : Collection D) (q : D → Bool) (u : KeyedUpdate D) (i : I) :
    (c.updateMany q u).lookup i = (c.lookup i).map (applyWhere q u.toUpdate) :=
  lookup_map_of_docs rfl (id_applyWhere q u.toUpdate) i

theorem lookup_updateManyUnique [DecidableEq K] {c c' : Collection D} {q : D → Bool}
    {u : Update D} (h : c.updateManyUnique q u = some c') (i : I) :
    c'.lookup i = (c.lookup i).map (applyWhere q u) :=
  lookup_map_of_docs (docs_updateManyUnique h) (id_applyWhere q u) i

theorem lookup_deleteMany (c : Collection D) (q : D → Bool) (i : I) :
    (c.deleteMany q).lookup i = (c.lookup i).filter fun d => !q d := by
  ext d
  rw [lookup_eq_some_iff, Option.filter_eq_some_iff, lookup_eq_some_iff]
  simp [deleteMany, and_right_comm]

/-- `update_one({"_id": i, …})` with an update that leaves the indexed key alone. -/
def updateOne (c : Collection D) (i : I) (q : D → Bool) (u : KeyedUpdate D) : Collection D :=
  c.updateMany (fun d => decide (Document.id d = i) && q d) u

theorem mem_updateOne {c : Collection D} {i : I} {q : D → Bool} {u : KeyedUpdate D} {d : D}
    (h : d ∈ (c.updateOne i q u).docs) :
    ∃ old ∈ c.docs, (Document.id old = i ∧ q old = true) ∧ d = u.apply old ∨
      ¬(Document.id old = i ∧ q old = true) ∧ d = old := by
  obtain ⟨old, hold, rfl⟩ := mem_updateMany.1 h
  refine ⟨old, hold, ?_⟩
  unfold applyWhere
  split
  · rename_i hpasses
    exact .inl ⟨by simpa using hpasses, rfl⟩
  · rename_i hfails
    exact .inr ⟨by simpa using hfails, rfl⟩

theorem lookup_updateOne_self (c : Collection D) (i : I) (q : D → Bool) (u : KeyedUpdate D) :
    (c.updateOne i q u).lookup i = (c.lookup i).map (applyWhere q u.toUpdate) := by
  rw [updateOne, lookup_updateMany]
  cases h : c.lookup i with
  | none => rfl
  | some d =>
    obtain ⟨-, hid⟩ := lookup_eq_some_iff.1 h
    simp [applyWhere, hid]

theorem lookup_updateOne_of_ne (c : Collection D) {i j : I} (q : D → Bool) (u : KeyedUpdate D)
    (h : j ≠ i) : (c.updateOne i q u).lookup j = c.lookup j := by
  rw [updateOne, lookup_updateMany]
  cases hlookup : c.lookup j with
  | none => rfl
  | some d =>
    obtain ⟨-, hid⟩ := lookup_eq_some_iff.1 hlookup
    simp [applyWhere, hid, h]

/-- A document that does not pass is left as it is. -/
theorem updateOne_of_not_matches (c : Collection D) {i : I} {q : D → Bool} (u : KeyedUpdate D)
    (h : ∀ d, c.lookup i = some d → q d = false) : c.updateOne i q u = c := by
  have hfix : ∀ d ∈ c.docs,
      applyWhere (fun d => decide (Document.id d = i) && q d) u.toUpdate d = d := by
    intro d hd
    refine applyWhere_of_not_matches _ ?_
    by_cases hid : Document.id d = i
    · simp [h d (lookup_eq_some_iff.2 ⟨hd, hid⟩)]
    · simp [hid]
  obtain ⟨docs, hids, hkeys⟩ := c
  simp only [updateOne, updateMany, Collection.mk.injEq]
  exact (List.map_congr_left hfix).trans (List.map_id docs)

/-- A guarded write that matches: the document that passed, as it is now, and the others. -/
theorem exists_of_updateOne {c : Collection D} {i : I} {q : D → Bool} (u : KeyedUpdate D)
    (h : (c.lookup i).any q = true) :
    ∃ d, c.lookup i = some d ∧ q d = true ∧ (c.updateOne i q u).lookup i = some (u.apply d) ∧
      ∀ j, j ≠ i → (c.updateOne i q u).lookup j = c.lookup j := by
  obtain ⟨d, hd, hq⟩ := Option.any_eq_true .. |>.1 h
  refine ⟨d, hd, hq, ?_, fun j hj => lookup_updateOne_of_ne c q u hj⟩
  rw [lookup_updateOne_self, hd, Option.map_some, applyWhere_of_matches _ hq]

/-- `update_one({"_id": i}, …, upsert=True)` where no index but the one on the `_id` is unique. `new` is
what the filter and the update make of no document. -/
def upsertOne [DecidableEq K] (c : Collection D) (u : KeyedUpdate D) (new : D) : Collection D :=
  match c.lookup (Document.id new) with
  | some _ => c.updateOne (Document.id new) (fun _ => true) u
  | none => (c.insertOne new).getD c

theorem lookup_upsertOne [DecidableEq K] (c : Collection D) (u : KeyedUpdate D) {new : D}
    (hkey : ∀ d e : D, Document.key d = Document.key e → Document.id d = Document.id e) (i : I) :
    (c.upsertOne u new).lookup i =
      if i = Document.id new then some (((c.lookup i).map u.apply).getD new) else c.lookup i := by
  unfold upsertOne
  cases hold : c.lookup (Document.id new) with
  | some old =>
    by_cases hi : i = Document.id new
    · subst hi
      rw [if_pos rfl, hold]
      dsimp only
      rw [lookup_updateOne_self, hold]
      rfl
    · rw [if_neg hi]
      exact lookup_updateOne_of_ne c _ u hi
  | none =>
    have hfree : ∀ e ∈ c.docs, Document.id e ≠ Document.id new := by
      intro e he hid
      have hfound : c.lookup (Document.id new) = some e := lookup_eq_some_iff.2 ⟨he, hid⟩
      rw [hold] at hfound
      cases hfound
    obtain ⟨c', hc'⟩ := Option.isSome_iff_exists.1
      (isSome_insertOne_iff.2 ⟨hfree, fun e he hsame => hfree e he (hkey e new hsame)⟩)
    dsimp only
    rw [hc', Option.getD_some, lookup_insertOne hc']
    by_cases hi : i = Document.id new
    · subst hi
      simp [hold]
    · rw [if_neg hi, if_neg (Ne.symm hi), Option.or_none]

/-- `find_one` with a sort: the first of the documents that pass with the least key. -/
def findLeast {β : Type*} [LinearOrder β] (c : Collection D) (q : D → Bool) (key : D → β) :
    Option D :=
  (c.find q).argmin key

omit [DecidableEq I] in
theorem mem_of_findLeast {β : Type*} [LinearOrder β] {c : Collection D} {q : D → Bool}
    {key : D → β} {d : D} (h : c.findLeast q key = some d) : d ∈ c.docs ∧ q d = true :=
  List.mem_filter.1 (List.argmin_mem h)

/-! ## Bulk writes -/

/-- The documents `new` are there, and under every other `_id` what was there before. -/
structure Overlaid (before after : Collection D) (new : List D) : Prop where
  fresh : ∀ d ∈ new, after.lookup (Document.id d) = some d
  kept : ∀ i, (∀ d ∈ new, Document.id d ≠ i) → after.lookup i = before.lookup i

/-- Documents that share their `_id` are equal. -/
def OnePerId (ds : List D) : Prop := ∀ d ∈ ds, ∀ e ∈ ds, Document.id d = Document.id e → d = e

namespace Overlaid

variable {a b c : Collection D} {ds es : List D}

theorem refl (c : Collection D) : Overlaid c c [] := ⟨by simp, fun _ _ => rfl⟩

theorem trans (hab : Overlaid a b ds) (hbc : Overlaid b c es) (hone : OnePerId (ds ++ es)) :
    Overlaid a c (ds ++ es) := by
  constructor
  · intro d hd
    by_cases hagain : ∃ e ∈ es, Document.id e = Document.id d
    · obtain ⟨e, he, hid⟩ := hagain
      have heq : e = d := hone e (List.mem_append_right ds he) d hd hid
      exact heq ▸ hbc.fresh e he
    · have hnot : d ∉ es := fun hmem => hagain ⟨d, hmem, rfl⟩
      have hbefore : d ∈ ds := (List.mem_append.1 hd).resolve_right hnot
      rw [hbc.kept _ fun e he hid => hagain ⟨e, he, hid⟩]
      exact hab.fresh d hbefore
  · intro i hi
    rw [hbc.kept i fun e he => hi e (List.mem_append_right ds he)]
    exact hab.kept i fun d hd => hi d (List.mem_append_left es hd)

theorem of_perm (h : Overlaid a b ds) (hperm : ds.Perm es) : Overlaid a b es where
  fresh d hd := h.fresh d (hperm.mem_iff.2 hd)
  kept i hi := h.kept i fun d hd => hi d (hperm.mem_iff.1 hd)

/-- Writes one after another, each of one document. -/
theorem foldl {α : Type} {write : Collection D → α → Collection D} {doc : α → D}
    (hwrite : ∀ c x, Overlaid c (write c x) [doc x]) {xs : List α} :
    OnePerId (xs.map doc) → ∀ c, Overlaid c (xs.foldl write c) (xs.map doc) := by
  induction xs with
  | nil => exact fun _ c => refl c
  | cons x xs ih =>
    intro hone c
    have hrest : OnePerId (xs.map doc) := fun d hd e he =>
      hone d (List.mem_cons_of_mem _ hd) e (List.mem_cons_of_mem _ he)
    exact (hwrite c x).trans (ih hrest (write c x)) hone

end Overlaid

/-- An upsert that writes the whole document. -/
theorem overlaid_upsertOne [DecidableEq K] (c : Collection D) {u : KeyedUpdate D} {new : D}
    (hkey : ∀ d e : D, Document.key d = Document.key e → Document.id d = Document.id e)
    (hu : ∀ d, Document.id d = Document.id new → u.apply d = new) :
    Overlaid c (c.upsertOne u new) [new] := by
  constructor
  · intro d hd
    obtain rfl := List.mem_singleton.1 hd
    rw [lookup_upsertOne c u hkey, if_pos rfl]
    cases hold : c.lookup (Document.id d) with
    | none => rfl
    | some old => exact congrArg some (hu old (lookup_eq_some_iff.1 hold).2)
  · intro i hi
    rw [lookup_upsertOne c u hkey, if_neg (Ne.symm (hi new (List.mem_singleton_self new)))]

end Collection

/-! ## Keys -/

namespace Collection

variable [DecidableEq K] {c c' : Collection D} {d : D} {k : K} {i : I}

/-- The id of the document that has a key. -/
def idAt (c : Collection D) (k : K) : Option I :=
  (c.findOne fun d => Document.key d = k).map Document.id

theorem idAt_eq_some_iff : c.idAt k = some i ↔
    ∃ d ∈ c.docs, Document.key d = k ∧ Document.id d = i := by
  rw [idAt, Option.map_eq_some_iff]
  constructor
  · rintro ⟨d, hd, hid⟩
    exact ⟨d, List.mem_of_find?_eq_some hd, by simpa using List.find?_some hd, hid⟩
  · rintro ⟨d, hd, rfl, hid⟩
    exact ⟨d, find?_eq_of_nodup Document.key c.nodup_key hd, hid⟩

theorem idAt_eq_none_iff : c.idAt k = none ↔ ∀ d ∈ c.docs, Document.key d ≠ k := by
  rw [idAt, Option.map_eq_none_iff, findOne, List.find?_eq_none]
  simp

/-- An insert takes a free key. -/
theorem idAt_insertOne [DecidableEq I] (h : c.insertOne d = some c') :
    c.idAt (Document.key d) = none ∧
      c'.idAt = Function.update c.idAt (Document.key d) (some (Document.id d)) := by
  obtain ⟨-, hkey, hdocs⟩ := insertOne_eq_some h
  have hfree : ∀ e ∈ c.docs, Document.key e ≠ Document.key d :=
    fun e he hek => hkey (hek ▸ List.mem_map_of_mem he)
  refine ⟨idAt_eq_none_iff.2 hfree, ?_⟩
  funext k
  ext i
  rw [idAt_eq_some_iff, hdocs]
  simp only [List.mem_append, List.mem_singleton, or_and_right, exists_or, exists_eq_left]
  by_cases hk : Document.key d = k
  · subst hk
    rw [Function.update_self, Option.some.injEq]
    refine ⟨?_, fun hid => .inr ⟨rfl, hid⟩⟩
    rintro (⟨e, he, hek, -⟩ | ⟨-, hid⟩)
    · exact absurd hek (hfree e he)
    · exact hid
  · rw [Function.update_of_ne (Ne.symm hk), idAt_eq_some_iff]
    simp [hk]

/-- What a write to one document leaves. -/
theorem mem_updateManyUnique {q : D → Bool} {u : Update D} (h : c.updateManyUnique q u = some c')
    (hd : d ∈ c.docs) (hq : ∀ e ∈ c.docs, q e = true ↔ e = d) (e : D) :
    e ∈ c'.docs ↔ e = u.apply d ∨ e ∈ c.docs ∧ e ≠ d := by
  have hself : applyWhere q u d = u.apply d := applyWhere_of_matches u ((hq d hd).2 rfl)
  have hother : ∀ e ∈ c.docs, e ≠ d → applyWhere q u e = e := fun e he hne =>
    applyWhere_of_not_matches u (by simpa [hne] using hq e he)
  rw [docs_updateManyUnique h, List.mem_map]
  constructor
  · rintro ⟨e, he, rfl⟩
    by_cases hed : e = d
    · exact .inl (hed ▸ hself)
    · rw [hother e he hed]
      exact .inr ⟨he, hed⟩
  · rintro (rfl | ⟨he, hed⟩)
    · exact ⟨d, hd, hself⟩
    · exact ⟨e, he, hother e he hed⟩

/-- A write to one document is refused when another has the key that it takes. -/
theorem isSome_updateManyUnique_iff {q : D → Bool} {u : Update D} (hd : d ∈ c.docs)
    (hq : ∀ e ∈ c.docs, q e = true ↔ e = d) :
    (c.updateManyUnique q u).isSome = true ↔
      ∀ e ∈ c.docs, e ≠ d → Document.key e ≠ Document.key (u.apply d) := by
  constructor
  · intro hsome e he hne hkey
    obtain ⟨c', h⟩ := Option.isSome_iff_exists.1 hsome
    have hmem := mem_updateManyUnique h hd hq
    have hsame : e = u.apply d :=
      List.inj_on_of_nodup_map c'.nodup_key ((hmem e).2 (.inr ⟨he, hne⟩)) ((hmem _).2 (.inl rfl)) hkey
    refine hne (List.inj_on_of_nodup_map c.nodup_id he hd ?_)
    rw [hsame, u.id_apply]
  · intro hfree
    have hself : applyWhere q u d = u.apply d := applyWhere_of_matches u ((hq d hd).2 rfl)
    have hother : ∀ e ∈ c.docs, e ≠ d → applyWhere q u e = e := fun e he hne =>
      applyWhere_of_not_matches u (by simpa [hne] using hq e he)
    have hnodup : ((c.docs.map (applyWhere q u)).map Document.key).Nodup := by
      rw [List.map_map, List.nodup_map_iff_inj_on c.nodup_id.of_map]
      intro e he e' he' hkey
      simp only [Function.comp_apply] at hkey
      by_cases hed : e = d
      · by_cases hed' : e' = d
        · rw [hed, hed']
        · subst hed
          rw [hself, hother e' he' hed'] at hkey
          exact absurd hkey.symm (hfree e' he' hed')
      · by_cases hed' : e' = d
        · subst hed'
          rw [hself, hother e he hed] at hkey
          exact absurd hkey (hfree e he hed)
        · rw [hother e he hed, hother e' he' hed'] at hkey
          exact List.inj_on_of_nodup_map c.nodup_key he he' hkey
    rw [updateManyUnique, dif_pos hnodup]
    rfl

/-- A write to one document gives up its key and takes the new one, which no other has. -/
theorem idAt_updateManyUnique {q : D → Bool} {u : Update D}
    (h : c.updateManyUnique q u = some c') (hd : d ∈ c.docs)
    (hq : ∀ e ∈ c.docs, q e = true ↔ e = d) :
    c'.idAt = Function.update (Function.update c.idAt (Document.key d) none)
        (Document.key (u.apply d)) (some (Document.id d)) ∧
      (Document.key (u.apply d) ≠ Document.key d → c.idAt (Document.key (u.apply d)) = none) := by
  have hmem := mem_updateManyUnique h hd hq
  have hnew : u.apply d ∈ c'.docs := (hmem _).2 (.inl rfl)
  have halone : ∀ e ∈ c.docs, Document.key e = Document.key (u.apply d) → e = d := by
    intro e he hek
    by_contra hne
    have hsame : e = u.apply d :=
      List.inj_on_of_nodup_map c'.nodup_key ((hmem e).2 (.inr ⟨he, hne⟩)) hnew hek
    refine hne (List.inj_on_of_nodup_map c.nodup_id he hd ?_)
    rw [hsame, u.id_apply]
  refine ⟨?_, fun hmoved => idAt_eq_none_iff.2 fun e he hek => ?_⟩
  · funext k
    ext i
    rw [idAt_eq_some_iff]
    simp only [hmem, or_and_right, exists_or, exists_eq_left, u.id_apply]
    by_cases hk : Document.key (u.apply d) = k
    · subst hk
      rw [Function.update_self, Option.some.injEq]
      refine ⟨?_, fun hid => .inl ⟨rfl, hid⟩⟩
      rintro (⟨-, hid⟩ | ⟨e, ⟨he, hed⟩, hek, -⟩)
      · exact hid
      · exact absurd (halone e he hek) hed
    · rw [Function.update_of_ne (Ne.symm hk)]
      simp only [hk, false_and, false_or]
      by_cases hold : k = Document.key d
      · subst hold
        rw [Function.update_self]
        simp only [reduceCtorEq, iff_false]
        rintro ⟨e, ⟨he, hed⟩, hek, -⟩
        exact hed (List.inj_on_of_nodup_map c.nodup_key he hd hek)
      · rw [Function.update_of_ne hold, idAt_eq_some_iff]
        refine exists_congr fun e => and_congr_left fun hek => and_iff_left_iff_imp.2 fun _ => ?_
        rintro rfl
        exact hold hek.1.symm
  · rw [halone e he hek] at hek
    exact hmoved hek.symm

end Collection

end

end Mongo
