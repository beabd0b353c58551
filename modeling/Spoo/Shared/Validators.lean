import Spoo.Lib.UrlSplit

/-!
# Blocklist patterns, redirects and lists of ids (`shared/validators.py`)

The `regex` package is a parameter.
-/

namespace Spoo

/-- The regular expression engine. -/
structure RegexLib where
  /-- `regex.compile(pattern)` does not raise. -/
  compiles : String → Bool
  /-- `regex.search(pattern, url, timeout=…)`: `none` for an invalid pattern or a timeout. -/
  search : String → String → Option Bool

variable (re : RegexLib)

/-- `is_valid_pattern` (`validators.py:219-229`). -/
def isValidPattern (pattern : String) : Bool := pattern ≠ "" && re.compiles pattern

/-- `matching_blocked_pattern`: the first pattern that matches; one that is invalid or runs out
of time is passed over (`validators.py:232-250`). -/
def matchingBlockedPattern (url : String) (patterns : List String) : Option String :=
  patterns.find? fun pattern => re.search pattern url = some true

/-- The matcher of one pattern. -/
def patternMatcher (pattern url : String) : Bool :=
  (matchingBlockedPattern re url [pattern]).isSome

/-- `validate_safe_redirect`: `none` is a `ValueError` (`validators.py:253-264`). -/
def validateSafeRedirect (lib : UrlSplit.TextLib) (url : String) (fallback : String := "/dashboard") :
    Option String :=
  if url.toList.head? ≠ some '/' then some fallback
  else
    match UrlSplit.urlsplit lib url.toList with
    | none => none
    | some parsed =>
      if parsed.scheme.any (· ≠ []) || parsed.netloc.any (· ≠ []) then some fallback else some url

/-! ## Lists of ids -/

/-- `_OBJECT_ID_RE`: 24 hexadecimal digits in lower case. -/
def isObjectIdText (item : String) : Bool :=
  item.toList.length = 24 && item.toList.all fun c => c.isDigit || ('a' ≤ c && c ≤ 'f')

/-- The items that are not there yet, in order. -/
def dedupeFirstWins (items : List String) : List String :=
  items.foldl (fun out item => if item ∈ out then out else out ++ [item]) []

/-- `normalise_object_ids` on a list of strings: `none` where it raises (`validators.py:270-287`). -/
def normaliseObjectIds (cap : Option Nat) (items : List String) : Option (List String) :=
  if items.all isObjectIdText then
    let out := dedupeFirstWins items
    if cap.any (· < out.length) then none else some out
  else none

theorem dedupeFirstWins_spec (items : List String) :
    (dedupeFirstWins items).Nodup ∧ ∀ item ∈ dedupeFirstWins items, item ∈ items := by
  have hloop (rest : List String) : ∀ out : List String, out.Nodup →
      (rest.foldl (fun out item => if item ∈ out then out else out ++ [item]) out).Nodup ∧
        ∀ item ∈ rest.foldl (fun out item => if item ∈ out then out else out ++ [item]) out,
          item ∈ out ∨ item ∈ rest := by
    induction rest with
    | nil => exact fun out hout => ⟨hout, fun item hitem => .inl hitem⟩
    | cons first rest ih =>
      intro out hout
      rw [List.foldl_cons]
      by_cases hseen : first ∈ out
      · rw [if_pos hseen]
        refine ⟨(ih out hout).1, fun item hitem => ?_⟩
        exact ((ih out hout).2 item hitem).imp_right (List.mem_cons_of_mem first)
      · rw [if_neg hseen]
        have hnext : (out ++ [first]).Nodup := by
          rw [List.nodup_append]
          refine ⟨hout, by simp, fun a ha b hb => ?_⟩
          rintro rfl
          exact hseen (List.mem_singleton.1 hb ▸ ha)
        refine ⟨(ih _ hnext).1, fun item hitem => ?_⟩
        rcases (ih _ hnext).2 item hitem with hitem | hitem
        · rcases List.mem_append.1 hitem with hitem | hitem
          · exact .inl hitem
          · exact .inr (List.mem_singleton.1 hitem ▸ List.mem_cons_self)
        · exact .inr (List.mem_cons_of_mem first hitem)
  obtain ⟨hnodup, hmem⟩ := hloop items [] List.nodup_nil
  exact ⟨hnodup, fun item hitem => (hmem item hitem).resolve_left List.not_mem_nil⟩

/-- What passes is a list of different ids, under the cap. -/
theorem normaliseObjectIds_eq_some {cap : Option Nat} {items out : List String}
    (h : normaliseObjectIds cap items = some out) :
    out.Nodup ∧ (∀ item ∈ out, isObjectIdText item = true) ∧ ∀ n ∈ cap, out.length ≤ n := by
  unfold normaliseObjectIds at h
  split at h
  · rename_i hitems
    dsimp only at h
    split at h
    · cases h
    · rename_i hcap
      cases h
      obtain ⟨hnodup, hmem⟩ := dedupeFirstWins_spec items
      refine ⟨hnodup, fun item hitem => List.all_eq_true.1 hitems item (hmem item hitem), ?_⟩
      intro n hn
      cases hn
      simpa using hcap
  · cases h

end Spoo
