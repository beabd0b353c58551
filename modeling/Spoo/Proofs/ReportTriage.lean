import Mathlib.Data.List.TakeWhile
import Spoo.Proofs.PerLinkBlocks
import Spoo.Services.ReportIntakeService

/-!
# The triage of reports

Each entry is sorted into one of two parts, and an entry that names no link leaves nothing behind that a later entry is
compared with. An entry that cannot be split as a URL takes the whole batch with it.
-/

namespace Spoo

open Mongo Mongo.Collection

namespace ReportIntake

/-- Each item in turn is in one of the two parts, and a rejected one is named by its index. -/
inductive Sorts : Nat → List ReportItemRequest → List AcceptedItem → List RejectedItem → Prop where
  | nil (index : Nat) : Sorts index [] [] []
  | accept {index : Nat} {item items accepted rejected} (entry : AcceptedItem) (hitem : entry.item = item)
      (hrest : Sorts (index + 1) items accepted rejected) :
      Sorts index (item :: items) (entry :: accepted) rejected
  | reject {index : Nat} {item items accepted rejected} (code : RejectionCode)
      (hrest : Sorts (index + 1) items accepted rejected) :
      Sorts index (item :: items) accepted (⟨index, item.codeOrUrl, code⟩ :: rejected)

/-- An entry is malformed: it names no link. -/
def IsMalformed (cfg : IntakeConfig) (item : ReportItemRequest) : Prop :=
  normalizeReportTarget cfg item.codeOrUrl = some none

instance (cfg : IntakeConfig) (item : ReportItemRequest) : Decidable (IsMalformed cfg item) :=
  inferInstanceAs (Decidable (_ = _))

/-- What became of the entries that are not malformed. -/
def Triage.outcomes (t : Triage) : List AcceptedItem × List (String × RejectionCode) :=
  (t.accepted, (t.rejected.filter (·.code ≠ .invalidInput)).map fun entry => (entry.input, entry.code))

/-- The batch is triaged: every entry is in one part, and those that are malformed make no difference to the
others. -/
def IsTriaged (cfg : IntakeConfig) (s : Stores) (items : List ReportItemRequest) : Prop :=
  ∃ t, triage cfg s items = some t ∧ Sorts 0 items t.accepted t.rejected ∧
    ∃ t', triage cfg s (items.filter fun item => ¬IsMalformed cfg item) = some t' ∧ t'.outcomes = t.outcomes

/-- An entry with a slash in it can be split as a URL. -/
def IsSplit (cfg : IntakeConfig) (item : ReportItemRequest) : Prop :=
  '/' ∈ (pyStrip item.codeOrUrl).toList →
    (UrlSplit.urlsplit cfg.text (candidate (pyStrip item.codeOrUrl))).isSome = true

variable {cfg : IntakeConfig} {s : Stores} {item : ReportItemRequest} {t t' : Triage}

/-! ## One entry -/

theorem isSome_normalizeReportTarget :
    (normalizeReportTarget cfg item.codeOrUrl).isSome = true ↔ IsSplit cfg item := by
  unfold normalizeReportTarget IsSplit
  dsimp only
  by_cases hempty : pyStrip item.codeOrUrl = ""
  · rw [if_pos hempty, hempty]
    simp
  · rw [if_neg hempty]
    by_cases hslash : '/' ∈ (pyStrip item.codeOrUrl).toList
    · rw [if_neg (not_not_intro hslash), Option.isSome_map]
      exact ⟨fun h _ => h, fun h => h hslash⟩
    · rw [if_pos hslash]
      simp [hslash]

/-- What one entry does. -/
theorem triageItem_cases {index : Nat} (h : triageItem cfg s t (item, index) = some t') :
    (IsMalformed cfg item ∧ t' = t.reject index item .invalidInput) ∨
      ¬IsMalformed cfg item ∧ ∃ target, normalizeReportTarget cfg item.codeOrUrl = some (some target) ∧
        (target ∈ t.seen ∧ t' = t.reject index item .duplicateInBatch ∨
          target ∉ t.seen ∧ ((∃ destinations, resolveDestinations cfg s target = some destinations ∧
              t' = { t with
                seen := t.seen ++ [target], accepted := t.accepted ++ [⟨target, item, destinations⟩] }) ∨
            resolveDestinations cfg s target = none ∧
              t' = ({ t with seen := t.seen ++ [target] } : Triage).reject index item .notFound)) := by
  unfold triageItem at h
  dsimp only at h
  cases hnormal : normalizeReportTarget cfg item.codeOrUrl with
  | none =>
    rw [hnormal] at h
    cases h
  | some target =>
    rw [hnormal] at h
    cases target with
    | none =>
      cases h
      exact .inl ⟨hnormal, rfl⟩
    | some target =>
      dsimp only at h
      have hformed : ¬IsMalformed cfg item := by
        intro hmalformed
        rw [IsMalformed, hnormal] at hmalformed
        cases hmalformed
      refine .inr ⟨hformed, target, rfl, ?_⟩
      by_cases hseen : target ∈ t.seen
      · rw [if_pos hseen] at h
        cases h
        exact .inl ⟨hseen, rfl⟩
      · rw [if_neg hseen] at h
        refine .inr ⟨hseen, ?_⟩
        cases hfound : resolveDestinations cfg s target with
        | some destinations =>
          rw [hfound] at h
          cases h
          exact .inl ⟨destinations, rfl, rfl⟩
        | none =>
          rw [hfound] at h
          cases h
          exact .inr ⟨rfl, rfl⟩

/-- An entry fails the batch if it cannot be normalised. -/
theorem isSome_triageItem (entry : ReportItemRequest × Nat) :
    (triageItem cfg s t entry).isSome = (normalizeReportTarget cfg entry.1.codeOrUrl).isSome := by
  unfold triageItem
  dsimp only
  cases normalizeReportTarget cfg entry.1.codeOrUrl with
  | none => rfl
  | some target =>
    cases target with
    | none => rfl
    | some target =>
      dsimp only
      split_ifs
      · rfl
      · cases resolveDestinations cfg s target <;> rfl

/-! ## The batch -/

/-- The loop ends where every entry can be normalised. -/
theorem isSome_foldlM_triageItem (items : List ReportItemRequest) : ∀ (index : Nat) (t : Triage),
    ((items.zipIdx index).foldlM (triageItem cfg s) t).isSome = true ↔ ∀ item ∈ items, IsSplit cfg item := by
  induction items with
  | nil =>
    intro index t
    simp
  | cons item items ih =>
    intro index t
    have hitem : (triageItem cfg s t (item, index)).isSome = (normalizeReportTarget cfg item.codeOrUrl).isSome :=
      isSome_triageItem (item, index)
    rw [List.zipIdx_cons, List.foldlM_cons, List.forall_mem_cons, ← isSome_normalizeReportTarget]
    cases hstep : triageItem cfg s t (item, index) with
    | none =>
      rw [hstep] at hitem
      rw [← hitem]
      simp
    | some t' =>
      rw [hstep] at hitem
      rw [← hitem]
      simpa using ih (index + 1) t'

/-- What a run adds is the entries, sorted. -/
theorem sorts_of_foldlM (items : List ReportItemRequest) : ∀ (index : Nat) (t t' : Triage),
    (items.zipIdx index).foldlM (triageItem cfg s) t = some t' →
      ∃ accepted rejected, t'.accepted = t.accepted ++ accepted ∧ t'.rejected = t.rejected ++ rejected ∧
        Sorts index items accepted rejected := by
  induction items with
  | nil =>
    intro index t t' h
    cases h
    exact ⟨[], [], (List.append_nil _).symm, (List.append_nil _).symm, .nil index⟩
  | cons item items ih =>
    intro index t t' h
    rw [List.zipIdx_cons, List.foldlM_cons] at h
    obtain ⟨next, hstep, hrest⟩ := Option.bind_eq_some_iff.1 h
    obtain ⟨accepted, rejected, haccepted, hrejected, hsorts⟩ := ih (index + 1) next t' hrest
    -- The entry is in front of what the rest of the run adds.
    have hrejects (code : RejectionCode) (hkept : next.accepted = t.accepted)
        (hadded : next.rejected = t.rejected ++ [⟨index, item.codeOrUrl, code⟩]) :
        ∃ accepted rejected, t'.accepted = t.accepted ++ accepted ∧ t'.rejected = t.rejected ++ rejected ∧
          Sorts index (item :: items) accepted rejected := by
      refine ⟨accepted, ⟨index, item.codeOrUrl, code⟩ :: rejected, ?_, ?_, .reject code hsorts⟩
      · rw [haccepted, hkept]
      · rw [hrejected, hadded, List.append_assoc, List.singleton_append]
    rcases triageItem_cases hstep with ⟨-, rfl⟩ | ⟨-, target, -, ⟨-, rfl⟩ | ⟨-, ⟨destinations, -, rfl⟩ | ⟨-, rfl⟩⟩⟩
    · exact hrejects _ rfl rfl
    · exact hrejects _ rfl rfl
    · refine ⟨⟨target, item, destinations⟩ :: accepted, rejected, ?_, hrejected, .accept _ rfl hsorts⟩
      rw [haccepted, List.append_assoc, List.singleton_append]
    · exact hrejects _ rfl rfl

/-- Two runs have come to the same for the entries that are not malformed. -/
def SameOutcomes (t u : Triage) : Prop := t.seen = u.seen ∧ t.outcomes = u.outcomes

theorem outcomes_reject (t : Triage) (index : Nat) (item : ReportItemRequest) (code : RejectionCode) :
    (t.reject index item code).outcomes =
      (t.outcomes.1, t.outcomes.2 ++ if code = .invalidInput then [] else [(item.codeOrUrl, code)]) := by
  unfold Triage.outcomes Triage.reject
  dsimp only
  rw [List.filter_append, List.map_append]
  cases code <;> rfl

/-- A malformed entry changes nothing that the other entries come to. -/
theorem SameOutcomes.skip {u next : Triage} {index : Nat} (hsame : SameOutcomes t u)
    (hmalformed : IsMalformed cfg item) (hstep : triageItem cfg s t (item, index) = some next) :
    SameOutcomes next u := by
  rcases triageItem_cases hstep with ⟨-, rfl⟩ | ⟨hformed, -⟩
  · refine ⟨hsame.1, ?_⟩
    rw [outcomes_reject, if_pos rfl, List.append_nil]
    exact hsame.2
  · exact absurd hmalformed hformed

/-- Any other entry comes to the same in both runs, whatever its place. -/
theorem SameOutcomes.step {u next other : Triage} {index index' : Nat} (hsame : SameOutcomes t u)
    (hformed : ¬IsMalformed cfg item) (hstep : triageItem cfg s t (item, index) = some next)
    (hother : triageItem cfg s u (item, index') = some other) : SameOutcomes next other := by
  have haccepted : t.accepted = u.accepted := congrArg Prod.fst hsame.2
  rcases triageItem_cases hstep with ⟨hmalformed, -⟩ | ⟨-, target, hnormal, hcase⟩
  · exact absurd hmalformed hformed
  rcases triageItem_cases hother with ⟨hmalformed, -⟩ | ⟨-, target', hnormal', hcase'⟩
  · exact absurd hmalformed hformed
  rw [hnormal] at hnormal'
  cases hnormal'
  rw [← hsame.1] at hcase'
  rcases hcase with ⟨hseen, rfl⟩ | ⟨hseen, ⟨destinations, hfound, rfl⟩ | ⟨hfound, rfl⟩⟩
  · rcases hcase' with ⟨-, rfl⟩ | ⟨hnot, -⟩
    · refine ⟨hsame.1, ?_⟩
      rw [outcomes_reject, outcomes_reject, hsame.2]
    · exact absurd hseen hnot
  · rcases hcase' with ⟨hnot, -⟩ | ⟨-, ⟨destinations', hfound', rfl⟩ | ⟨hfound', -⟩⟩
    · exact absurd hnot hseen
    · rw [hfound] at hfound'
      cases hfound'
      refine ⟨rfl, Prod.ext ?_ (congrArg Prod.snd hsame.2 :)⟩
      exact congrArg (· ++ [_]) haccepted
    · rw [hfound] at hfound'
      cases hfound'
  · rcases hcase' with ⟨hnot, -⟩ | ⟨-, ⟨destinations', hfound', -⟩ | ⟨-, rfl⟩⟩
    · exact absurd hnot hseen
    · rw [hfound] at hfound'
      cases hfound'
    · refine ⟨rfl, ?_⟩
      rw [outcomes_reject, outcomes_reject]
      exact Prod.ext haccepted (congrArg (· ++ _) (congrArg Prod.snd hsame.2))

/-- A run without the malformed entries comes to the same. -/
theorem sameOutcomes_of_foldlM (items : List ReportItemRequest) :
    ∀ (index index' : Nat) (t u t' : Triage), SameOutcomes t u →
      (items.zipIdx index).foldlM (triageItem cfg s) t = some t' →
      ∃ u', ((items.filter fun item => ¬IsMalformed cfg item).zipIdx index').foldlM (triageItem cfg s) u =
        some u' ∧ SameOutcomes t' u' := by
  induction items with
  | nil =>
    intro index index' t u t' hsame h
    cases h
    exact ⟨u, rfl, hsame⟩
  | cons item items ih =>
    intro index index' t u t' hsame h
    rw [List.zipIdx_cons, List.foldlM_cons] at h
    obtain ⟨next, hstep, hrest⟩ := Option.bind_eq_some_iff.1 h
    by_cases hmalformed : IsMalformed cfg item
    · rw [List.filter_cons_of_neg (by simpa using hmalformed)]
      exact ih (index + 1) index' next u t' (hsame.skip hmalformed hstep) hrest
    · rw [List.filter_cons_of_pos (by simpa using hmalformed), List.zipIdx_cons, List.foldlM_cons]
      have hsome : (triageItem cfg s u (item, index')).isSome = true := by
        have hitem : (triageItem cfg s t (item, index)).isSome =
            (normalizeReportTarget cfg item.codeOrUrl).isSome := isSome_triageItem (item, index)
        rw [isSome_triageItem, ← hitem, hstep]
        rfl
      obtain ⟨other, hother⟩ := Option.isSome_iff_exists.1 hsome
      rw [hother]
      exact ih (index + 1) (index' + 1) next other t' (hsame.step hmalformed hstep hother) hrest

/-- A batch is triaged, every entry in one part and the malformed ones without effect on the others, if and
only if each entry with a slash in it can be split as a URL. -/
theorem triaged_iff (cfg : IntakeConfig) (s : Stores) (items : List ReportItemRequest) :
    IsTriaged cfg s items ↔ ∀ item ∈ items, IsSplit cfg item := by
  rw [← isSome_foldlM_triageItem (s := s) items 0 {}]
  constructor
  · rintro ⟨t, ht, -⟩
    exact Option.isSome_iff_exists.2 ⟨t, ht⟩
  · intro h
    obtain ⟨t, ht⟩ := Option.isSome_iff_exists.1 h
    obtain ⟨accepted, rejected, haccepted, hrejected, hsorts⟩ := sorts_of_foldlM items 0 {} t ht
    obtain ⟨t', ht', hsame⟩ := sameOutcomes_of_foldlM items 0 0 {} {} t ⟨rfl, rfl⟩ ht
    rw [List.nil_append] at haccepted hrejected
    rw [← haccepted, ← hrejected] at hsorts
    exact ⟨t, ht, hsorts, t', ht', hsame.2.symm⟩

/-- A report of a link is accepted alone, and lost next to an entry with a bracket that is not closed. -/
theorem batch_lost_to_bracket :
    ((triage plainIntake SafetyEnforcer.threeLinks [⟨"oldone"⟩]).map Triage.accepted =
        some [⟨(none, "oldone"), ⟨"oldone"⟩, ["https://a.example/old"]⟩]) ∧
      triage plainIntake SafetyEnforcer.threeLinks [⟨"oldone"⟩, ⟨"https://[spoo.me/abc"⟩] = none ∧
      ¬IsTriaged plainIntake SafetyEnforcer.threeLinks [⟨"oldone"⟩, ⟨"https://[spoo.me/abc"⟩] := by
  have hlost : triage plainIntake SafetyEnforcer.threeLinks [⟨"oldone"⟩, ⟨"https://[spoo.me/abc"⟩] = none := by
    decide +kernel
  refine ⟨by decide +kernel, hlost, ?_⟩
  rintro ⟨t, ht, -⟩
  rw [hlost] at ht
  cases ht

end ReportIntake

end Spoo
