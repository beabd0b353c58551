import Spoo.Shared.Validators

/-!
# Where a safe redirect leads

The check asks whether there is an authority. A browser takes a backslash for a slash, and passes over
further slashes at the head of an authority, where the split finds an empty one.
-/

namespace Spoo

open UrlSplit

/-- A path of the same site. -/
def SameSitePath (target : List Char) : Prop :=
  target.head? = some '/' ∧ target[1]? ≠ some '/' ∧ target[1]? ≠ some '\\'

/-- What a browser reads of a target: it removes tabs and line ends. -/
def browserText (target : String) : List Char := target.toList.filter fun c => !isRemoved c

/-- A path of the same site, also as a browser reads it. -/
def SafeTarget (target : String) : Prop :=
  SameSitePath target.toList ∧ SameSitePath (browserText target)

/-- A text that begins with a slash and is no path of the site names an authority. -/
def NamesHostsPlainly (url : String) : Prop :=
  url.toList.head? = some '/' → (browserText url)[1]? ≠ some '\\' ∧
    ((browserText url)[1]? = some '/' → (browserText url)[2]?.any (fun c => !endsNetloc c) = true)

variable {lib : TextLib} {url : String} {tail more : List Char}

/-- A text that begins with a slash is split as it is, less what is removed. -/
theorem browserText_of_slash (h : url.toList = '/' :: tail) :
    browserText url = '/' :: tail.filter (fun c => !isRemoved c) ∧ cleaned url.toList = browserText url := by
  have hslash : browserText url = '/' :: tail.filter (fun c => !isRemoved c) := by
    rw [browserText, h]
    rfl
  refine ⟨hslash, ?_⟩
  rw [cleaned, browserText, h]
  rfl

theorem splitScheme_slash (more : List Char) : splitScheme ('/' :: more) = (none, '/' :: more) := by
  unfold splitScheme
  split
  · rename_i head rest hcut
    have hhead : head = '/' :: more.takeWhile (· ≠ ':') := (congrArg Prod.fst hcut).symm
    rw [hhead]
    rfl
  · rfl

/-- What comes of a text that begins with a slash. -/
theorem validateSafeRedirect_of_slash (h : url.toList = '/' :: tail) :
    validateSafeRedirect lib url =
      let netloc := (splitNetloc (browserText url)).1.getD []
      if netloc = [] then some url else if isNetloc lib netloc then some "/dashboard" else none := by
  obtain ⟨hslash, hcleaned⟩ := browserText_of_slash h
  have hhead : url.toList.head? = some '/' := by rw [h]; rfl
  have hscheme : splitScheme (cleaned url.toList) = (none, browserText url) := by
    rw [hcleaned, hslash, splitScheme_slash]
  unfold validateSafeRedirect urlsplit
  rw [if_neg (not_not_intro hhead), hscheme]
  dsimp only
  cases hnetloc : (splitNetloc (browserText url)).1 with
  | none => rfl
  | some netloc =>
    rw [Option.getD_some]
    cases netloc with
    | nil => rfl
    | cons c netloc =>
      rw [if_neg (List.cons_ne_nil c netloc)]
      cases isNetloc lib (c :: netloc) <;> rfl

theorem splitNetloc_slashes (rest : List Char) :
    ((splitNetloc ('/' :: '/' :: rest)).1.getD [] = []) ↔
      ¬ rest.head?.any (fun c => !endsNetloc c) = true := by
  have hnetloc : (splitNetloc ('/' :: '/' :: rest)).1 = some (rest.takeWhile fun c => !endsNetloc c) := rfl
  rw [hnetloc, Option.getD_some]
  cases rest with
  | nil => simp
  | cons c rest =>
    rw [List.takeWhile_cons, List.head?_cons, Option.any_some]
    cases !endsNetloc c <;> simp

theorem splitNetloc_of_ne {c : Char} (hc : c ≠ '/') (rest : List Char) :
    splitNetloc ('/' :: c :: rest) = (none, '/' :: c :: rest) := by
  unfold splitNetloc
  split
  · rename_i heq
    exact absurd (List.cons.inj (List.cons.inj heq).2).1 hc
  · rfl

theorem safeTarget_dashboard : SafeTarget "/dashboard" := by
  unfold SafeTarget SameSitePath
  decide

/-- A text that begins with a slash is a safe target as soon as a browser reads it as one. -/
theorem safeTarget_of_slash (h : url.toList = '/' :: tail) :
    SafeTarget url ↔ (browserText url)[1]? ≠ some '/' ∧ (browserText url)[1]? ≠ some '\\' := by
  obtain ⟨hslash, -⟩ := browserText_of_slash h
  have hkept {c : Char} (hc : isRemoved c = false) (hsecond : url.toList[1]? = some c) :
      (browserText url)[1]? = some c := by
    rw [h] at hsecond
    rw [hslash]
    cases tail with
    | nil => cases hsecond
    | cons d tail =>
      cases hsecond
      rw [List.filter_cons, hc]
      rfl
  constructor
  · exact fun hsafe => hsafe.2.2
  · intro hsecond
    refine ⟨⟨by rw [h]; rfl, fun hslash' => ?_, fun hback => ?_⟩, by rw [hslash]; rfl, hsecond⟩
    · exact hsecond.1 (hkept rfl hslash')
    · exact hsecond.2 (hkept rfl hback)

/-- What is returned is a path of the same site, as it stands and as a browser reads it, if and only if the
input does not name a host with a backslash or behind an empty authority. -/
theorem safe_redirect_iff (lib : TextLib) (url : String) :
    (∀ target, validateSafeRedirect lib url = some target → SafeTarget target) ↔ NamesHostsPlainly url := by
  by_cases hhead : url.toList.head? = some '/'
  · obtain ⟨tail, htail⟩ : ∃ tail, url.toList = '/' :: tail := List.head?_eq_some_iff.1 hhead
    have hsafe := safeTarget_of_slash htail
    obtain ⟨hslash, -⟩ := browserText_of_slash htail
    have hplain : NamesHostsPlainly url ↔ (browserText url)[1]? ≠ some '\\' ∧
        ((browserText url)[1]? = some '/' → (browserText url)[2]?.any (fun c => !endsNetloc c) = true) :=
      ⟨fun h => h hhead, fun h _ => h⟩
    -- The input itself is returned where it names no authority.
    have hreturned (hnone : (splitNetloc (browserText url)).1.getD [] = []) :
        (∀ target, validateSafeRedirect lib url = some target → SafeTarget target) ↔ SafeTarget url := by
      rw [validateSafeRedirect_of_slash htail]
      dsimp only
      rw [if_pos hnone]
      simp only [Option.some.injEq, forall_eq']
    rw [hplain]
    generalize hmore : tail.filter (fun c => !isRemoved c) = more at hslash
    cases more with
    | nil =>
      rw [hslash] at hreturned hsafe ⊢
      rw [hreturned rfl, hsafe]
      simp
    | cons c rest =>
      by_cases hc : c = '/'
      · subst hc
        rw [hslash] at hreturned hsafe ⊢
        simp only [List.getElem?_cons_succ, List.getElem?_cons_zero, ne_eq, not_true, false_and,
          forall_const] at hsafe ⊢
        rw [List.head?_eq_getElem?.symm]
        by_cases hnone : ((splitNetloc ('/' :: '/' :: rest)).1.getD []) = []
        · have hempty := (splitNetloc_slashes rest).1 hnone
          rw [hreturned hnone, hsafe]
          simp [hempty]
        · have hnamed := not_not.1 (mt (splitNetloc_slashes rest).2 hnone)
          rw [validateSafeRedirect_of_slash htail, hslash]
          dsimp only
          rw [if_neg hnone]
          refine iff_of_true (fun target htarget => ?_) ⟨by decide, hnamed⟩
          split_ifs at htarget
          cases htarget
          exact safeTarget_dashboard
      · have hnone : (splitNetloc (browserText url)).1.getD [] = [] := by
          rw [hslash, splitNetloc_of_ne hc]
          rfl
        rw [hreturned hnone, hsafe, hslash]
        simp [hc]
  · have hfallback : validateSafeRedirect lib url = some "/dashboard" := if_pos hhead
    rw [hfallback]
    constructor
    · exact fun _ hslash => absurd hslash hhead
    · intro _ target htarget
      cases htarget
      exact safeTarget_dashboard

/-- A backslash and an empty authority pass the check. -/
theorem backslash_not_blocked :
    (validateSafeRedirect asciiText "/\\evil.com" = some "/\\evil.com" ∧ ¬SafeTarget "/\\evil.com") ∧
      validateSafeRedirect asciiText "///evil.com" = some "///evil.com" ∧ ¬SafeTarget "///evil.com" := by
  unfold SafeTarget SameSitePath
  decide +kernel

end Spoo
