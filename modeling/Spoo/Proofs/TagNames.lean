import Spoo.Shared.Tags

/-!
# Names that normalise to themselves

A tag name is normalised where a request is read and once more where the document is built, and a
lookup normalises it once. The rules collapse white space before they take control characters out, so
one kind of name is a different one the second time.
-/

namespace Spoo

namespace UnicodeLib

open PyList

variable {lib : UnicodeLib}

/-- Control characters between two white spaces, with a character on either side that stays. -/
def HasControlGap (value : List Char) : Prop :=
  ∃ before gap after, value = before ++ (gap ++ after) ∧ gap ≠ [] ∧
    (∀ c ∈ gap, isTagControlChar c = true ∧ isPySpace c = false) ∧
      (∃ c ∈ before.getLast?, isPySpace c = true) ∧ (∃ c ∈ after.head?, isPySpace c = true) ∧
        (∃ c ∈ before, isTagControlChar c = false ∧ isPySpace c = false) ∧
          ∃ c ∈ after, isTagControlChar c = false ∧ isPySpace c = false

theorem isPySpace_space : isPySpace ' ' = true := by decide

theorem isTagControlChar_space : isTagControlChar ' ' = false := by decide

/-! ## The stages -/

/-- What is left when the control characters are out. -/
def withoutControls (value : List Char) : List Char :=
  (collapseSpaces value).filter fun c => !isTagControlChar c

theorem eq_space_of_mem {value : List Char} {c : Char} (hc : c ∈ strip isPySpace (withoutControls value))
    (hspace : isPySpace c = true) : c = ' ' := by
  obtain ⟨ys, zs, hsplit, -, -⟩ := exists_append_strip isPySpace (withoutControls value)
  have hmem : c ∈ withoutControls value := by
    rw [hsplit]
    simp [hc]
  exact eq_of_mem_collapse false (List.mem_filter.1 hmem).1 hspace

theorem not_control_of_mem {value : List Char} {c : Char} (hc : c ∈ strip isPySpace (withoutControls value)) :
    isTagControlChar c = false := by
  obtain ⟨ys, zs, hsplit, -, -⟩ := exists_append_strip isPySpace (withoutControls value)
  have hmem : c ∈ withoutControls value := by
    rw [hsplit]
    simp [hc]
  simpa using (List.mem_filter.1 hmem).2

theorem Lawful.keepsMarks (hlib : lib.Lawful) : KeepsMarks isPySpace ' ' lib.casefold where
  mark := hlib.casefold_space
  ne_nil c _ := hlib.casefold_ne_nil c
  not := hlib.casefold_not_space

/-- Folded text folds to itself. -/
theorem flatMap_casefold {text : List Char} (htext : ∀ c ∈ text, lib.casefold c = [c]) :
    text.flatMap lib.casefold = text := by
  induction text with
  | nil => rfl
  | cons c text ih =>
    rw [List.flatMap_cons, htext c List.mem_cons_self, ih fun d hd => htext d (List.mem_cons_of_mem c hd)]
    rfl

theorem not_control_of_mem_collapse {value : List Char} {c : Char}
    (hc : c ∈ collapseSpaces (strip isPySpace (withoutControls value))) : isTagControlChar c = false := by
  cases hspace : isPySpace c with
  | true =>
    rw [eq_of_mem_collapse false hc hspace]
    exact isTagControlChar_space
  | false => exact not_control_of_mem ((mem_collapse_of_not isPySpace_space hspace false _).1 hc)

/-- A text that has been through the rules has nothing left for them to do but to collapse spaces. -/
theorem tagText_tagText (hlib : lib.Lawful) (value : List Char) :
    lib.tagText (lib.tagText value) = collapseSpaces (lib.tagText value) := by
  have hmarked : ∀ c ∈ strip isPySpace (withoutControls value), isPySpace c = true → c = ' ' :=
    fun c hc => eq_space_of_mem hc
  have hmarked' : ∀ c ∈ collapseSpaces (strip isPySpace (withoutControls value)), isPySpace c = true → c = ' ' :=
    fun c hc => eq_of_mem_collapse false hc
  have hcollapse : collapseSpaces (lib.tagText value) =
      (collapseSpaces (strip isPySpace (withoutControls value))).flatMap lib.casefold :=
    hlib.keepsMarks.collapse_flatMap false hmarked
  have hcontrols : ∀ d ∈ collapseSpaces (lib.tagText value), (!isTagControlChar d) = true := by
    intro d hd
    rw [hcollapse] at hd
    obtain ⟨c, hc, hdc⟩ := List.mem_flatMap.1 hd
    rw [hlib.casefold_not_control c (not_control_of_mem_collapse hc) d hdc]
    rfl
  have htrimmed : Trimmed isPySpace (collapseSpaces (lib.tagText value)) := by
    rw [hcollapse]
    exact hlib.keepsMarks.trimmed_flatMap hmarked'
      ((trimmed_strip isPySpace (withoutControls value)).collapse isPySpace_space)
  have hfolded : ∀ d ∈ collapseSpaces (lib.tagText value), lib.casefold d = [d] := by
    intro d hd
    rw [hcollapse] at hd
    obtain ⟨c, -, hdc⟩ := List.mem_flatMap.1 hd
    exact hlib.casefold_idem c d hdc
  rw [tagText, List.filter_eq_self.2 hcontrols, strip_eq_self htrimmed, flatMap_casefold hfolded]

/-- Spaces are collapsed in a text that has been through the rules just when two are side by side in what
was folded. -/
theorem collapseSpaces_tagText_iff (hlib : lib.Lawful) (value : List Char) :
    collapseSpaces (lib.tagText value) = lib.tagText value ↔
      ¬∃ as cs, strip isPySpace (withoutControls value) = as ++ ' ' :: ' ' :: cs := by
  constructor
  · rintro hself ⟨as, cs, heq⟩
    have hdouble : lib.tagText value =
        as.flatMap lib.casefold ++ ' ' :: ' ' :: cs.flatMap lib.casefold := by
      have htext : lib.tagText value = (strip isPySpace (withoutControls value)).flatMap lib.casefold := rfl
      rw [htext, heq]
      simp [hlib.casefold_space]
    have hcollapsed : collapse isPySpace ' ' false (lib.tagText value) = lib.tagText value := hself
    exact collapse_ne_double isPySpace_space false (lib.tagText value) _ _ (hcollapsed.trans hdouble)
  · intro hdouble
    have hmarked : ∀ c ∈ strip isPySpace (withoutControls value), isPySpace c = true → c = ' ' :=
      fun c hc => eq_space_of_mem hc
    have hcollapse : collapseSpaces (lib.tagText value) =
        (collapseSpaces (strip isPySpace (withoutControls value))).flatMap lib.casefold :=
      hlib.keepsMarks.collapse_flatMap false hmarked
    have hself : collapseSpaces (strip isPySpace (withoutControls value)) =
        strip isPySpace (withoutControls value) :=
      collapse_eq_self hmarked (fun as cs heq => hdouble ⟨as, cs, heq⟩) (by simp)
    rw [hcollapse, hself]
    rfl

/-! ## Gaps of control characters -/

theorem not_space_of_control {value : List Char} {c : Char} (hc : c ∈ collapseSpaces value)
    (hcontrol : isTagControlChar c = true) : isPySpace c = false := by
  cases hspace : isPySpace c with
  | false => rfl
  | true =>
    rw [eq_of_mem_collapse false hc hspace, isTagControlChar_space] at hcontrol
    cases hcontrol

/-- A text that ends in white space is left with a space at its end. -/
theorem exists_collapse_of_last {before : List Char} (hlast : ∃ c ∈ before.getLast?, isPySpace c = true) :
    ∃ as, collapseSpaces before = as ++ [' '] := by
  obtain ⟨c, hc, hspace⟩ := hlast
  have hends : endsIn isPySpace false before = true := by
    obtain ⟨ys, rfl⟩ := List.getLast?_eq_some_iff.1 hc
    simpa using hspace
  rw [← endsIn_collapse isPySpace_space (s := ' ')] at hends
  rcases List.eq_nil_or_concat (collapseSpaces before) with hnil | ⟨as, d, has⟩
  · rw [collapseSpaces] at hnil
    rw [hnil] at hends
    cases hends
  · have hd : isPySpace d = true := by
      rw [collapseSpaces] at has
      rw [has] at hends
      simpa using hends
    have hmem : d ∈ collapse isPySpace ' ' false before := by
      rw [collapseSpaces] at has
      simp [has]
    rw [eq_of_mem_collapse false hmem hd, List.concat_eq_append] at has
    exact ⟨as, has⟩

/-- A gap leaves two spaces side by side. -/
theorem double_of_gap {value : List Char} (h : HasControlGap value) :
    ∃ as cs, withoutControls value = as ++ ' ' :: ' ' :: cs ∧ (∃ a ∈ as, isPySpace a = false) ∧
      ∃ c ∈ cs, isPySpace c = false := by
  obtain ⟨before, gap, after, rfl, hgap, hcontrols, hlast, ⟨s, hs, hspace⟩, ⟨a, ha, hakept, hanot⟩,
    c, hc, hckept, hcnot⟩ := h
  obtain ⟨as, has⟩ := exists_collapse_of_last hlast
  have hends : endsIn isPySpace false before = true := by
    obtain ⟨d, hd, hdspace⟩ := hlast
    obtain ⟨ys, rfl⟩ := List.getLast?_eq_some_iff.1 hd
    simpa using hdspace
  have hgapnot : ∀ d ∈ gap, isPySpace d = false := fun d hd => (hcontrols d hd).2
  cases after with
  | nil => simp at hs
  | cons d after =>
    obtain rfl : d = s := by simpa using hs
    have hcollapse : collapseSpaces (before ++ (gap ++ d :: after)) =
        as ++ ' ' :: (gap ++ ' ' :: collapse isPySpace ' ' true after) := by
      rw [collapseSpaces, collapse_append, collapse_append, hends, collapse_of_not true hgapnot,
        endsIn_of_not true hgap hgapnot, collapse_false_cons hspace]
      rw [collapseSpaces] at has
      simp [has]
    have hgapfilter : gap.filter (fun c => !isTagControlChar c) = [] := by
      rw [List.filter_eq_nil_iff]
      intro d hd
      simp [(hcontrols d hd).1]
    refine ⟨as.filter fun c => !isTagControlChar c,
      (collapse isPySpace ' ' true after).filter fun c => !isTagControlChar c, ?_, ?_, ?_⟩
    · rw [withoutControls, hcollapse]
      simp [hgapfilter, isTagControlChar_space]
    · have hmem : a ∈ collapseSpaces before := (mem_collapse_of_not isPySpace_space hanot false before).2 ha
      rw [has] at hmem
      rcases List.mem_append.1 hmem with hmem | hmem
      · exact ⟨a, List.mem_filter.2 ⟨hmem, by simp [hakept]⟩, hanot⟩
      · rw [List.mem_singleton.1 hmem, isPySpace_space] at hanot
        cases hanot
    · rcases List.mem_cons.1 hc with rfl | hmem
      · rw [hspace] at hcnot
        cases hcnot
      · have hmem' := (mem_collapse_of_not isPySpace_space hcnot true after).2 hmem
        exact ⟨c, List.mem_filter.2 ⟨hmem', by simp [hckept]⟩, hcnot⟩

/-- Two spaces side by side come from a gap. -/
theorem gap_of_double {value as cs : List Char} (h : withoutControls value = as ++ ' ' :: ' ' :: cs)
    (has : ∃ a ∈ as, isPySpace a = false) (hcs : ∃ c ∈ cs, isPySpace c = false) : HasControlGap value := by
  obtain ⟨left, right, hcollapse, hleft, hright⟩ := List.filter_eq_append_iff.1 h
  obtain ⟨g, right, rfl, hg, -, hright⟩ := List.filter_eq_cons_iff.1 hright
  obtain ⟨gap, right, rfl, hgap, -, hright⟩ := List.filter_eq_cons_iff.1 hright
  have hsplit : collapse isPySpace ' ' false value = (left ++ (g ++ [' '])) ++ (gap ++ ' ' :: right) := by
    rw [collapseSpaces] at hcollapse
    simp [hcollapse]
  have hne : gap ≠ [] := by
    rintro rfl
    exact collapse_ne_double isPySpace_space false value (left ++ g) right (by simpa using hsplit)
  have hcontrol : ∀ c ∈ gap, isTagControlChar c = true := fun c hc => by simpa using hgap c hc
  have hnot : ∀ c ∈ gap, isPySpace c = false := by
    intro c hc
    have hmem : c ∈ collapse isPySpace ' ' false value := by
      rw [hsplit]
      simp [hc]
    exact not_space_of_control hmem (hcontrol c hc)
  -- The text is taken apart at the end of the first space, and behind the gap.
  obtain ⟨front, rest, rfl, hfront, hrest⟩ := exists_of_collapse_eq_append hsplit
  have hends : endsIn isPySpace false front = true := by
    rw [← endsIn_collapse isPySpace_space (s := ' '), hfront]
    simp [isPySpace_space]
  rw [hends] at hrest
  obtain ⟨middle, after, rfl, hmiddle, hafter⟩ := exists_of_collapse_eq_append hrest
  obtain ⟨spaces, rfl, hspaces, -⟩ := exists_of_collapse_eq isPySpace_space hnot hmiddle
  rw [endsIn_append, endsIn_of_not _ hne hnot] at hafter
  refine ⟨front ++ spaces, gap, after, by simp, hne, fun c hc => ⟨hcontrol c hc, hnot c hc⟩, ?_, ?_, ?_, ?_⟩
  · rcases List.eq_nil_or_concat spaces with rfl | ⟨ys, c, rfl⟩
    · rw [List.append_nil]
      by_contra hlast
      have hfalse := (endsIn_eq_false_iff front).2 fun c hc =>
        Bool.eq_false_iff.2 fun hspace => hlast ⟨c, hc, hspace⟩
      rw [hends] at hfalse
      cases hfalse
    · exact ⟨c, by simp, hspaces c (by simp)⟩
  · cases after with
    | nil => cases hafter
    | cons c after =>
      refine ⟨c, rfl, ?_⟩
      by_contra hspace
      rw [collapse_cons_of_not (Bool.not_eq_true _ ▸ hspace)] at hafter
      rw [(List.cons.inj hafter).1] at hspace
      exact hspace isPySpace_space
  · obtain ⟨a, ha, hanot⟩ := has
    rw [← hleft] at ha
    have hkept := List.mem_filter.1 ha
    have hmem : a ∈ collapse isPySpace ' ' false front := by
      rw [hfront]
      simp [hkept.1]
    have hfront' := (mem_collapse_of_not isPySpace_space hanot false front).1 hmem
    exact ⟨a, List.mem_append_left spaces hfront', by simpa using hkept.2, hanot⟩
  · obtain ⟨c, hc, hcnot⟩ := hcs
    rw [← hright] at hc
    have hkept := List.mem_filter.1 hc
    have hmem : c ∈ collapse isPySpace ' ' false after := by
      rw [hafter]
      exact List.mem_cons_of_mem _ hkept.1
    exact ⟨c, (mem_collapse_of_not isPySpace_space hcnot false after).1 hmem, by simpa using hkept.2, hcnot⟩

theorem hasControlGap_iff (value : List Char) :
    HasControlGap value ↔ ∃ as cs, strip isPySpace (withoutControls value) = as ++ ' ' :: ' ' :: cs := by
  rw [strip_double_iff isPySpace_space]
  constructor
  · exact double_of_gap
  · rintro ⟨as, cs, heq, has, hcs⟩
    exact gap_of_double heq has hcs

/-! ## The checks -/

theorem checkTag_eq_ok_iff {tag : List Char} {name : String} :
    lib.checkTag tag = .ok name ↔
      (tag ≠ [] ∧ tag.length ≤ tagMaxLength ∧ tag.all lib.isTagChar = true) ∧ name = String.ofList tag := by
  rw [checkTag]
  by_cases hempty : tag = []
  · simp [hempty]
  · rw [if_neg hempty]
    by_cases hlength : tagMaxLength < tag.length
    · rw [if_pos hlength]
      simp [Nat.not_le.2 hlength]
    · rw [if_neg hlength]
      by_cases hchars : tag.all lib.isTagChar = true
      · rw [if_pos hchars]
        simp [hempty, Nat.not_lt.1 hlength, hchars, eq_comm]
      · rw [if_neg hchars]
        simp [hchars]

/-- Collapsing spaces keeps an accepted tag accepted. -/
theorem checkTag_collapseSpaces {tag : List Char} {name : String} (h : lib.checkTag tag = .ok name) :
    lib.checkTag (collapseSpaces tag) = .ok (String.ofList (collapseSpaces tag)) := by
  obtain ⟨⟨hne, hlength, hchars⟩, -⟩ := checkTag_eq_ok_iff.1 h
  refine checkTag_eq_ok_iff.2 ⟨⟨?_, ?_, ?_⟩, rfl⟩
  · cases tag with
    | nil => exact absurd rfl hne
    | cons c tag =>
      cases hspace : isPySpace c with
      | true => simp [collapseSpaces, collapse_false_cons hspace]
      | false => simp [collapseSpaces, collapse_cons_of_not hspace]
  · exact Nat.le_trans (length_collapse_le isPySpace ' ' false tag) hlength
  · refine List.all_eq_true.2 fun c hc => ?_
    cases hspace : isPySpace c with
    | true =>
      rw [eq_of_mem_collapse false hc hspace]
      simp [isTagChar, tagPunctuation]
    | false => exact List.all_eq_true.1 hchars c ((mem_collapse_of_not isPySpace_space hspace false tag).1 hc)

theorem normaliseTag_str (value : String) :
    lib.normaliseTag (.str value) = lib.checkTag (lib.tagText value.toList) := rfl

theorem storedName_of_ok {value : TagValue} {name : String} (h : lib.normaliseTag value = .ok name) :
    lib.storedName value = lib.normaliseTag (.str name) := by
  simp only [storedName, h, bind, Except.bind]

/-- What a second pass answers. -/
theorem normaliseTag_of_ok (hlib : lib.Lawful) {value tag : String}
    (h : lib.normaliseTag (.str value) = .ok tag) :
    tag.toList = lib.tagText value.toList ∧
      lib.normaliseTag (.str tag) = .ok (String.ofList (collapseSpaces tag.toList)) := by
  rw [normaliseTag_str] at h
  have htag : tag.toList = lib.tagText value.toList := by
    rw [(checkTag_eq_ok_iff.1 h).2, String.toList_ofList]
  refine ⟨htag, ?_⟩
  rw [normaliseTag_str, htag, tagText_tagText hlib]
  exact checkTag_collapseSpaces h

theorem ofList_collapseSpaces_iff (tag : String) :
    String.ofList (collapseSpaces tag.toList) = tag ↔ collapseSpaces tag.toList = tag.toList := by
  constructor
  · intro h
    have hchars := congrArg String.toList h
    rwa [String.toList_ofList] at hchars
  · intro h
    rw [h, String.ofList_toList]

/-- A name that is accepted normalises to itself, and is the one that the document stores, just when no
control characters stand between white spaces inside it. -/
theorem normaliseTag_again_iff (hlib : lib.Lawful) {value tag : String}
    (h : lib.normaliseTag (.str value) = .ok tag) :
    (lib.normaliseTag (.str tag) = .ok tag ∧ lib.storedName (.str value) = lib.normaliseTag (.str value)) ↔
      ¬HasControlGap value.toList := by
  obtain ⟨htag, hagain⟩ := normaliseTag_of_ok hlib h
  have hiff : lib.normaliseTag (.str tag) = .ok tag ↔ ¬HasControlGap value.toList := by
    rw [hagain, Except.ok.injEq, ofList_collapseSpaces_iff, htag, collapseSpaces_tagText_iff hlib,
      hasControlGap_iff]
  rw [storedName_of_ok h, h, and_self]
  exact hiff

/-- A name that is stored is one that normalises to itself, whatever it was before. -/
theorem normaliseTag_storedName (hlib : lib.Lawful) {value tag : String}
    (h : lib.normaliseTag (.str value) = .ok tag) :
    ∃ name, lib.storedName (.str value) = .ok name ∧ lib.normaliseTag (.str name) = .ok name := by
  obtain ⟨htag, hagain⟩ := normaliseTag_of_ok hlib h
  obtain ⟨hname, hthird⟩ := normaliseTag_of_ok hlib hagain
  refine ⟨_, (storedName_of_ok h).trans hagain, ?_⟩
  rw [hthird, Except.ok.injEq, ofList_collapseSpaces_iff, String.toList_ofList]
  exact collapse_collapse isPySpace_space false tag.toList

/-! ## ASCII -/

/-- What Unicode says of ASCII. -/
def ascii : UnicodeLib where
  casefold c := [c.toLower]
  isAlnum := Char.isAlphanum
  isCombiningMark _ := false

/-- Lower case letters are made of upper case ones, and of nothing else. -/
theorem toLower_cases (c : Char) : c.toLower = c ∨ (97 ≤ c.toLower.toNat ∧ c.toLower.toNat ≤ 122) := by
  by_cases hupper : c.val ≥ 'A'.val ∧ c.val ≤ 'Z'.val
  · right
    have hlower : c.toLower.val = c.val + ('a'.val - 'A'.val) := congrArg Char.val (dif_pos hupper)
    obtain ⟨hlow, hhigh⟩ := hupper
    have hlow' : 65 ≤ c.val.toNat := hlow
    have hhigh' : c.val.toNat ≤ 90 := hhigh
    have hdistance : ('a'.val - 'A'.val).toNat = 32 := rfl
    simp only [Char.toNat, hlower, UInt32.toNat_add]
    omega
  · exact .inl (dif_neg hupper)

theorem toLower_eq_self {c : Char} (h : 97 ≤ c.toNat) : c.toLower = c := by
  refine dif_neg ?_
  rintro ⟨-, hhigh⟩
  have hhigh' : c.toNat ≤ 90 := hhigh
  omega

theorem lawful_ascii : ascii.Lawful where
  casefold_idem c d hd := by
    obtain rfl := List.mem_singleton.1 hd
    rcases toLower_cases c with hself | ⟨hlow, -⟩
    · simp [ascii, hself]
    · simp [ascii, toLower_eq_self hlow]
  casefold_ne_nil c := by simp [ascii]
  casefold_space := by decide
  casefold_not_space c hc d hd := by
    obtain rfl := List.mem_singleton.1 hd
    rcases toLower_cases c with hself | ⟨hlow, hhigh⟩
    · rwa [hself]
    · simp only [isPySpace, decide_eq_false_iff_not]
      omega
  casefold_not_control c hc d hd := by
    obtain rfl := List.mem_singleton.1 hd
    rcases toLower_cases c with hself | ⟨hlow, hhigh⟩
    · rwa [hself]
    · simp only [isTagControlChar, Bool.or_eq_false_iff, decide_eq_false_iff_not]
      omega

theorem normaliseTag_launch : ascii.normaliseTag (.str " Spring\tLaunch ") = .ok "spring launch" := by
  decide +kernel

theorem normaliseTag_again_launch :
    (ascii.normaliseTag (.str "spring launch") = .ok "spring launch" ∧
        ascii.storedName (.str " Spring\tLaunch ") = ascii.normaliseTag (.str " Spring\tLaunch ")) ↔
      ¬HasControlGap " Spring\tLaunch ".toList :=
  normaliseTag_again_iff lawful_ascii normaliseTag_launch

/-- A control character between two spaces leaves both of them, and the document takes one more. -/
theorem control_gap_renames :
    ascii.Lawful ∧ ascii.normaliseTag (.str "a \x00 b") = .ok "a  b" ∧
      ascii.normaliseTag (.str "a  b") = .ok "a b" ∧ ascii.storedName (.str "a \x00 b") = .ok "a b" := by
  refine ⟨lawful_ascii, ?_, ?_, ?_⟩
  all_goals decide +kernel

end UnicodeLib

end Spoo
