import Mathlib.Data.List.Basic

/-!
# Expressions of a MongoDB aggregation

The operators on scalars and on arrays of scalars, the scalars not being numbers. A field that a
document does not have is missing, and an operator on a value of the wrong type fails.
-/

namespace Aggregation

variable {α : Type}

/-- A value of an expression. -/
inductive Value (α : Type) where
  | missing
  | null
  | bool (b : Bool)
  | scalar (a : α)
  | array (xs : List α)
  deriving DecidableEq, Repr

/-- How a condition reads a value. -/
def Value.truth : Value α → Bool
  | .missing => false
  | .null => false
  | .bool b => b
  | .scalar _ => true
  | .array _ => true

/-- An expression. `field` is `"$name"` and `var` is `"$$name"`. -/
inductive Expr (α : Type) where
  | literal (value : Value α)
  | field (name : String)
  | var (name : String)
  /-- `{"$ifNull": [input, replacement]}`. -/
  | ifNull (input replacement : Expr α)
  /-- `{"$not": input}`. -/
  | not (input : Expr α)
  /-- `{"$in": [input, array]}`. -/
  | isIn (input array : Expr α)
  /-- `{"$filter": {"input": input, "cond": cond}}`, with the element as `$$this`. -/
  | filter (input cond : Expr α)
  /-- `{"$let": {"vars": {name: value}, "in": body}}`. -/
  | letIn (name : String) (value body : Expr α)
  /-- `{"$concatArrays": [left, right]}`. -/
  | concatArrays (left right : Expr α)

/-- The elements that a condition keeps, if it fails on none. -/
def keepEach (cond : α → Option Bool) : List α → Option (List α)
  | [] => some []
  | x :: xs => do
    let keep ← cond x
    let kept ← keepEach cond xs
    some (if keep then x :: kept else kept)

theorem keepEach_eq_filter {cond : α → Option Bool} {p : α → Bool} {xs : List α}
    (h : ∀ x ∈ xs, cond x = some (p x)) : keepEach cond xs = some (xs.filter p) := by
  induction xs with
  | nil => rfl
  | cons x xs ih =>
    have htail := ih fun y hy => h y (List.mem_cons_of_mem x hy)
    simp only [keepEach, h x List.mem_cons_self, htail, Option.bind_eq_bind, Option.bind_some,
      List.filter_cons]

/-- The variables. -/
abbrev Env (α : Type) := String → Value α

/-- No variable is bound. -/
def Env.empty : Env α := fun _ => .missing

/-- A variable is bound, and hides another of its name. -/
def Env.bind (env : Env α) (name : String) (value : Value α) : Env α :=
  fun other => if other = name then value else env other

theorem Env.bind_same (env : Env α) (name : String) (value : Value α) :
    env.bind name value name = value := if_pos rfl

theorem Env.bind_of_ne {env : Env α} {name other : String} {value : Value α} (h : other ≠ name) :
    env.bind name value other = env other := if_neg h

/-- The value of an expression on a document. -/
def eval [DecidableEq α] (doc : String → Value α) (env : Env α) : Expr α → Option (Value α)
  | .literal value => some value
  | .field name => some (doc name)
  | .var name => some (env name)
  | .ifNull input replacement =>
    match eval doc env input with
    | some .missing => eval doc env replacement
    | some .null => eval doc env replacement
    | other => other
  | .not input => (eval doc env input).map fun value => .bool !value.truth
  | .isIn input array =>
    match eval doc env input, eval doc env array with
    | some (.scalar a), some (.array xs) => some (.bool (decide (a ∈ xs)))
    | some _, some (.array _) => some (.bool false)
    | _, _ => none
  | .filter input cond =>
    match eval doc env input with
    | some .missing => some .null
    | some .null => some .null
    | some (.array xs) =>
      (keepEach (fun x => (eval doc (env.bind "this" (.scalar x)) cond).map Value.truth) xs).map .array
    | _ => none
  | .letIn name value body =>
    (eval doc env value).bind fun value => eval doc (env.bind name value) body
  | .concatArrays left right =>
    match eval doc env left, eval doc env right with
    | some (.array xs), some (.array ys) => some (.array (xs ++ ys))
    | some .missing, some _ => some .null
    | some .null, some _ => some .null
    | some (.array _), some .missing => some .null
    | some (.array _), some .null => some .null
    | _, _ => none

section

variable [DecidableEq α] {doc : String → Value α} {env : Env α} {xs ys : List α}

/-- `$filter` on an array, with a condition that is a test of the element. -/
theorem eval_filter {input cond : Expr α} {p : α → Bool} (hinput : eval doc env input = some (.array xs))
    (hcond : ∀ x ∈ xs, eval doc (env.bind "this" (.scalar x)) cond = some (.bool (p x))) :
    eval doc env (.filter input cond) = some (.array (xs.filter p)) := by
  have hkept : keepEach (fun x => (eval doc (env.bind "this" (.scalar x)) cond).map Value.truth) xs =
      some (xs.filter p) := by
    refine keepEach_eq_filter fun x hx => ?_
    rw [hcond x hx]
    rfl
  simp only [eval, hinput, hkept, Option.map_some]

/-- `{"$not": {"$in": ["$$this", array]}}` is the test for the elements that are not in the array. -/
theorem eval_not_isIn_this {array : Expr α} {x : α}
    (harray : eval doc (env.bind "this" (.scalar x)) array = some (.array ys)) :
    eval doc (env.bind "this" (.scalar x)) (.not (.isIn (.var "this") array)) =
      some (.bool (decide (x ∉ ys))) := by
  simp only [eval, harray, Env.bind_same, Option.map_some, Value.truth, decide_not]

theorem eval_concatArrays {left right : Expr α} (hleft : eval doc env left = some (.array xs))
    (hright : eval doc env right = some (.array ys)) :
    eval doc env (.concatArrays left right) = some (.array (xs ++ ys)) := by
  simp only [eval, hleft, hright]

theorem eval_letIn {name : String} {value body : Expr α} {bound : Value α}
    (hvalue : eval doc env value = some bound) :
    eval doc env (.letIn name value body) = eval doc (env.bind name bound) body := by
  simp only [eval, hvalue, Option.bind_some]

end

end Aggregation
