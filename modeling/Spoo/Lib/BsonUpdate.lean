import Mathlib.Data.List.Basic
import Spoo.Lib.Fallible
import Spoo.Lib.PyDict

/-!
# Update paths

Documents as trees, and the operators of an update that reach into them. A dot of a path separates nested
fields, fields on the way that are missing are created as documents, and a component that is a number
reaches into an array.
-/

namespace Bson

/-- A value of a document. -/
inductive Value where
  | null
  | int (n : Int)
  | str (s : String)
  | array (items : List Value)
  | doc (fields : List (String × Value))

/-- What a server refuses an update for. -/
inductive UpdateError where
  | fieldName
  | pathNotViable
  | typeMismatch
  deriving DecidableEq, Repr

/-- The field of a name. -/
def get? (fields : List (String × Value)) (key : String) : Option Value :=
  (fields.find? fun e => e.1 = key).map Prod.snd

/-- A component that is an index. -/
def arrayIndex (key : String) : Option Nat :=
  if key ≠ "" ∧ key.toList.all Char.isDigit then some (Nat.ofDigitChars 10 key.toList 0) else none

/-- An operator at the end of a path, from a value that may be missing. The names that may be stored are
a parameter. -/
def modifyAt (accepts : String → Bool) (op : Option Value → Except UpdateError Value) :
    List String → Option Value → Except UpdateError Value
  | [], value => op value
  | key :: path, none =>
    if accepts key then (modifyAt accepts op path none).map fun w => .doc [(key, w)]
    else .error .fieldName
  | key :: path, some (.doc fields) =>
    if accepts key then
      (modifyAt accepts op path (get? fields key)).map fun w => .doc (PyDict.assignEntry key w fields)
    else .error .fieldName
  | key :: path, some (.array items) =>
    match arrayIndex key with
    | none => .error .pathNotViable
    | some i =>
      match items[i]? with
      | some item => (modifyAt accepts op path (some item)).map fun w => .array (items.set i w)
      | none => (modifyAt accepts op path none).map fun w =>
          .array (items ++ List.replicate (i - items.length) .null ++ [w])
  | _ :: _, some _ => .error .pathNotViable

/-- The operators. -/
inductive UpdateOp where
  | inc (n : Int)
  | set (value : Value)
  | max (s : String)
  | addToSet (s : String)

/-- The value is this text. -/
def Value.isStr (s : String) : Value → Bool
  | .str t => t = s
  | _ => false

/-- What an operator makes of a value. -/
def UpdateOp.run : UpdateOp → Option Value → Except UpdateError Value
  | .inc n, none => .ok (.int n)
  | .inc n, some (.int m) => .ok (.int (m + n))
  | .inc _, some _ => .error .typeMismatch
  | .set value, _ => .ok value
  | .max s, some (.str t) => .ok (.str (if t < s then s else t))
  -- Arrays and documents sort after every text.
  | .max _, some (.array items) => .ok (.array items)
  | .max _, some (.doc fields) => .ok (.doc fields)
  | .max s, _ => .ok (.str s)
  | .addToSet s, none => .ok (.array [.str s])
  | .addToSet s, some (.array items) =>
    .ok (.array (if items.any (Value.isStr s) then items else items ++ [.str s]))
  | .addToSet _, some _ => .error .typeMismatch

/-- The components of a path. -/
def pathOf (path : String) : List String := (path.toList.splitOn '.').map String.ofList

/-- An update of one document, whose paths are not in conflict: all of it or nothing. -/
def update (accepts : String → Bool) (ops : List (String × UpdateOp)) (root : Value) :
    Except UpdateError Value :=
  ops.foldlM (fun value op => modifyAt accepts op.2.run (pathOf op.1) (some value)) root

/-! ## Paths -/

theorem pathOf_of_notMem {name : String} (h : '.' ∉ name.toList) : pathOf name = [name] := by
  have hsingle : name.toList.splitOn '.' = [name.toList] :=
    List.splitOnP_eq_singleton fun c hc => by
      rw [beq_eq_false_iff_ne]
      rintro rfl
      exact h hc
  rw [pathOf, hsingle, List.map_singleton, String.ofList_toList]

/-- A dot joins the components of two paths. -/
theorem pathOf_append (first second : String) :
    pathOf (first ++ "." ++ second) = pathOf first ++ pathOf second := by
  have hchars : (first ++ "." ++ second).toList = first.toList ++ '.' :: second.toList := by simp
  unfold pathOf
  rw [hchars, List.splitOn, List.splitOnP_append_cons _ _ (by simp), List.map_append]
  rfl

theorem pathOf_ne_nil (path : String) : pathOf path ≠ [] := by
  simp [pathOf, List.splitOn, List.splitOnP_ne_nil]

/-- A name with a dot is more than one component. -/
theorem exists_pathOf_of_mem {name : String} (h : '.' ∈ name.toList) :
    ∃ first second rest, pathOf name = first :: second :: rest := by
  obtain ⟨before, after, hsplit⟩ := List.append_of_mem h
  have hname : name = String.ofList before ++ "." ++ String.ofList after := by
    apply String.toList_injective
    simp [hsplit]
  obtain ⟨first, rest, hfirst⟩ := List.exists_cons_of_ne_nil (pathOf_ne_nil (String.ofList before))
  obtain ⟨second, rest', hsecond⟩ := List.exists_cons_of_ne_nil (pathOf_ne_nil (String.ofList after))
  rw [hname, pathOf_append, hfirst, hsecond]
  cases rest with
  | nil => exact ⟨first, second, rest', rfl⟩
  | cons next rest => exact ⟨first, next, rest ++ second :: rest', rfl⟩

/-! ## What an operator leaves alone -/

section

variable {accepts : String → Bool} {op : Option Value → Except UpdateError Value} {key : String}
  {path : List String} {fields : List (String × Value)} {items : List Value} {value result : Value}
  {old : Option Value}

@[simp] theorem get?_assignEntry (key other : String) (w : Value) (fields : List (String × Value)) :
    get? (PyDict.assignEntry key w fields) other = if key = other then some w else get? fields other := by
  rw [get?, PyDict.find?_assignEntry]
  split <;> rfl

theorem modifyAt_none : modifyAt accepts op (key :: path) none = .ok result ↔
    accepts key = true ∧ ∃ w, modifyAt accepts op path none = .ok w ∧ result = .doc [(key, w)] := by
  rw [modifyAt]
  split
  · rename_i haccepts
    simp only [haccepts, true_and, Fallible.map_eq_ok]
    exact exists_congr fun w => and_congr_right fun _ => eq_comm
  · rename_i hrefused
    simp [hrefused]

theorem modifyAt_doc : modifyAt accepts op (key :: path) (some (.doc fields)) = .ok result ↔
    accepts key = true ∧ ∃ w, modifyAt accepts op path (get? fields key) = .ok w ∧
      result = .doc (PyDict.assignEntry key w fields) := by
  rw [modifyAt]
  split
  · rename_i haccepts
    simp only [haccepts, true_and, Fallible.map_eq_ok]
    exact exists_congr fun w => and_congr_right fun _ => eq_comm
  · rename_i hrefused
    simp [hrefused]

theorem modifyAt_array (h : modifyAt accepts op (key :: path) (some (.array items)) = .ok result) :
    (∃ i, arrayIndex key = some i) ∧ ∃ items', result = .array items' := by
  rw [modifyAt] at h
  split at h
  · cases h
  · rename_i i hindex
    refine ⟨⟨i, hindex⟩, ?_⟩
    split at h
    · obtain ⟨w, -, rfl⟩ := Fallible.map_eq_ok.1 h
      exact ⟨_, rfl⟩
    · obtain ⟨w, -, rfl⟩ := Fallible.map_eq_ok.1 h
      exact ⟨_, rfl⟩

/-- What a path can go on through. -/
inductive Container : Value → Prop where
  | array (items : List Value) : Container (.array items)
  | doc (fields : List (String × Value)) : Container (.doc fields)

/-- A path that goes on does so into an array or a document, and leaves one. -/
theorem container_of_modifyAt (h : modifyAt accepts op (key :: path) old = .ok result) :
    (∀ value, old = some value → Container value) ∧ Container result := by
  cases old with
  | none =>
    obtain ⟨-, w, -, rfl⟩ := modifyAt_none.1 h
    exact ⟨fun value hvalue => absurd hvalue.symm (Option.some_ne_none value), .doc _⟩
  | some value =>
    cases value with
    | doc fields =>
      obtain ⟨-, w, -, rfl⟩ := modifyAt_doc.1 h
      exact ⟨fun value hvalue => Option.some.inj hvalue ▸ .doc _, .doc _⟩
    | array items =>
      obtain ⟨-, items', rfl⟩ := modifyAt_array h
      exact ⟨fun value hvalue => Option.some.inj hvalue ▸ .array _, .array _⟩
    | _ => simp [modifyAt] at h

end

end Bson
