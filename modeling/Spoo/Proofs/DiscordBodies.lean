import Spoo.Proofs.DiscordTexts
import Spoo.Proofs.LinkEvents

/-!
# What a Discord body displays

Whatever the event, every display is plain text or one fenced block until the budget cuts the longest. A cut of
plain text leaves plain text. A cut of a fenced block leaves a fence that nothing closes.
-/

namespace Spoo.Renderers.Discord

open Markup

/-! ## The copy -/

section

variable {lib : CopyLib} {eventType timestamp : String} {payload : PyDict String Json} {copy : Copy}

theorem written_labelOf (eventType : String) : Written (labelOf eventType) := written_lit _

theorem written_displayOf {link : PyDict String Json} {t : Text} (h : displayOf lib link = some t) :
    Written t := by
  unfold displayOf at h
  split at h
  · rw [← Option.some.inj h]
    exact ((written_val _).append (written_lit _)).append (written_val _)
  · cases h

theorem written_title (link : PyDict String Json) : Written (title lib eventType link) := by
  unfold title
  cases hdisplay : displayOf lib link with
  | none => exact written_labelOf eventType
  | some display =>
    exact ((written_labelOf eventType).append (written_lit _)).append (written_displayOf hdisplay)

theorem written_referrerHost {referrer : Json} {t : Text} (h : referrerHost lib referrer = some t) :
    Written t := by
  unfold referrerHost at h
  split at h
  · cases h
  · split at h
    · exact Option.some.inj h ▸ written_val _
    · exact Option.some.inj h ▸ written_val _
    · exact Option.some.inj h ▸ written_ofChars (by decide) _

theorem written_fmt (lib : CopyLib) (value : Json) : Written (fmt lib value) := by
  cases value with
  | null => exact written_lit _
  | bool b => cases b <;> exact written_lit _
  | num n => exact (written_val _).clip _
  | str s => exact (written_val _).clip _
  | arr values => exact (written_val _).clip _
  | obj fields => exact (written_val _).clip _

theorem written_datePart (value : Json) : Written (datePart lib value) := by
  unfold datePart
  split
  · exact (written_val _).of_subset fun g hg => List.mem_of_mem_take hg
  · exact written_lit _

theorem written_countOf (n : Nat) (one many : String) : Written (countOf n one many) := by
  unfold countOf
  split
  · exact written_lit _
  · exact ((written_ofChars (by decide) _).append (written_lit _)).append (written_lit _)

theorem written_reasonOf {reason : Json} {t : Text} (h : reasonOf lib reason = some t) : Written t := by
  cases reason with
  | arr values => cases h
  | obj fields => cases h
  | str reason =>
    rw [← Option.some.inj h]
    cases expiryReasons.get? reason with
    | none => exact written_fmt lib (.str reason)
    | some text => exact written_lit text
  | null => exact Option.some.inj h ▸ written_fmt lib _
  | bool b => exact Option.some.inj h ▸ written_fmt lib _
  | num n => exact Option.some.inj h ▸ written_fmt lib _

/-- A notice is a number in words of the code. -/
theorem isPlain_notice {t : Text} (h : notice lib payload = some t) : IsPlain t := by
  unfold notice at h
  cases hdropped : asInt (get payload "dropped_since_last") with
  | none =>
    rw [hdropped] at h
    cases h
  | some dropped =>
    rw [hdropped] at h
    dsimp only at h
    split at h
    · rw [← Option.some.inj h]
      refine (((isPlain_ofChars ?_).append (isPlain_lit _ (by decide))).append ?_).append
        (isPlain_lit _ (by decide))
      · cases hvalue : get payload "dropped_since_last" with
        | num n => exact fun c hc => isClean_toString hc
        | bool b => cases b <;> simp [pyStr] <;> decide
        | null => simp [hvalue, asInt] at hdropped
        | str s => simp [hvalue, asInt] at hdropped
        | arr values => simp [hvalue, asInt] at hdropped
        | obj fields => simp [hvalue, asInt] at hdropped
      · split
        · exact isPlain_lit _ (by decide)
        · exact isPlain_lit _ (by decide)
    · cases h

/-- What every copy has, whatever its event. -/
structure Sound (copy : Copy) : Prop where
  label : Written copy.label
  title : Written copy.title
  display : ∀ t, copy.display = some t → Written t
  subtitle : ∀ t, copy.subtitle = some t → Written t
  notice : ∀ t, copy.notice = some t → IsPlain t

theorem sound_commonCopy (lib : CopyLib) (eventType timestamp : String) (payload : PyDict String Json) :
    Sound (commonCopy lib eventType timestamp payload) := by
  refine ⟨written_labelOf _, written_title _, fun t => written_displayOf, ?_, fun t => isPlain_notice⟩
  intro t ht
  rw [commonCopy] at ht
  dsimp only at ht
  split at ht
  · exact Option.some.inj ht ▸ written_val _
  · cases ht

theorem sound_buildCopy (h : buildCopy lib eventType timestamp payload = some copy) : Sound copy := by
  obtain ⟨hlabel, htitle, hdisplay, hsubtitle, hnotice⟩ := sound_commonCopy lib eventType timestamp payload
  unfold buildCopy at h
  dsimp only at h
  split_ifs at h
  · obtain ⟨pairs, -, rfl⟩ := Option.map_eq_some_iff.1 h
    exact ⟨hlabel, htitle, hdisplay, hsubtitle, hnotice⟩
  · exact Option.some.inj h ▸ ⟨hlabel, htitle, hdisplay, hsubtitle, hnotice⟩
  · exact Option.some.inj h ▸ ⟨hlabel, htitle, hdisplay, hsubtitle, hnotice⟩
  · exact Option.some.inj h ▸ ⟨hlabel, htitle, hdisplay, hsubtitle, hnotice⟩
  · obtain ⟨pairs, -, rfl⟩ := Option.map_eq_some_iff.1 h
    exact ⟨hlabel, htitle, hdisplay, hsubtitle, hnotice⟩
  · exact Option.some.inj h ▸ ⟨hlabel, htitle, hdisplay, hsubtitle, hnotice⟩

/-! ## The displays -/

theorem written_labelText (h : Sound copy) : Written (labelText copy) := by
  unfold labelText
  split
  · exact h.label
  · exact h.title

theorem isPlain_heading (h : Sound copy) {t : Text} (ht : heading eventType copy = some t) : IsPlain t := by
  have hlabel : IsPlain (lit "### " ++ md (labelText copy)) :=
    (isPlain_lit _ (by decide)).append (isPlain_md (written_labelText h))
  unfold heading at ht
  cases hdisplay : copy.display with
  | none =>
    rw [hdisplay] at ht
    exact Option.some.inj ht ▸ hlabel
  | some display =>
    have hunlinked : IsPlain (lit "### " ++ md (labelText copy) ++ lit "  " ++ md display) :=
      (hlabel.append (isPlain_lit _ (by decide))).append (isPlain_md (h.display display hdisplay))
    rw [hdisplay] at ht
    dsimp only at ht
    split at ht
    · exact Option.some.inj ht ▸ hunlinked
    · split at ht
      · split at ht
        · rw [← Option.some.inj ht]
          refine ((((hlabel.append (isPlain_lit _ (by decide))).append
            (isPlain_md (h.display display hdisplay))).append (isPlain_lit _ (by decide))).append
            (isPlain_linkTarget _)).append (isPlain_lit _ (by decide))
        · cases ht
      · exact Option.some.inj ht ▸ hunlinked

theorem isPlain_subtitle (h : Sound copy) {t : Text} (ht : t ∈ subtitle copy) : IsPlain t := by
  unfold subtitle at ht
  cases hsubtitle : copy.subtitle with
  | none =>
    rw [hsubtitle] at ht
    cases ht
  | some text =>
    have hplain : IsPlain (lit "-# " ++ md (clip text subtitleMax)) :=
      (isPlain_lit _ (by decide)).append (isPlain_md ((h.subtitle text hsubtitle).clip _))
    rw [hsubtitle] at ht
    split at ht
    · cases ht
    · cases ht
    · rename_i heq
      obtain rfl := Option.some.inj heq
      exact List.mem_singleton.1 ht ▸ hplain

theorem isPlain_footer (h : Sound copy) {count : Option Text} (hcount : ∀ t, count = some t → IsPlain t)
    (epoch : Option Int) : IsPlain (footer eventType copy count epoch) := by
  have hall : ∀ e ∈ footers.entries, isUnmarked e.2.1 = true ∧ isUnmarked e.2.2 = true := by decide
  have hwords : IsPlain (lit ((footers.get? eventType).getD ("received", "f")).1) ∧
      IsPlain (lit ((footers.get? eventType).getD ("received", "f")).2) := by
    cases hget : footers.get? eventType with
    | none => exact ⟨isPlain_lit _ (by decide), isPlain_lit _ (by decide)⟩
    | some words =>
      obtain ⟨hverb, hstyle⟩ := hall _ (PyDict.mem_entries_of_get? hget)
      exact ⟨isPlain_lit _ hverb, isPlain_lit _ hstyle⟩
  have hcount : IsPlain (count.elim [] fun count => lit " " ++ count) := by
    cases hc : count with
    | none => exact isPlain_nil
    | some t => exact (isPlain_lit _ (by decide)).append (hcount t hc)
  have hepoch : IsPlain (epoch.elim [] fun epoch => lit "   <t:" ++ lit (toString epoch) ++ lit ":" ++
      lit ((footers.get? eventType).getD ("received", "f")).2 ++ lit ">") := by
    cases epoch with
    | none => exact isPlain_nil
    | some n =>
      have hdigits : IsPlain (lit (toString n)) := by
        refine isPlain_lit _ (List.all_eq_true.2 fun c hc => ?_)
        have hclean := isClean_toString hc
        have hslash : c ≠ '\\' := fun h => absurd (h ▸ hclean) (by decide)
        have htick : c ≠ '\x60' := fun h => absurd (h ▸ hclean) (by decide)
        simp [hslash, htick]
      exact ((((isPlain_lit _ (by decide)).append hdigits).append (isPlain_lit _ (by decide))).append
        hwords.2).append (isPlain_lit _ (by decide))
  have hnotice : IsPlain (copy.notice.elim [] fun notice => lit "\n-# " ++ notice) := by
    cases hn : copy.notice with
    | none => exact isPlain_nil
    | some t => exact (isPlain_lit _ (by decide)).append (h.notice t hn)
  exact ((((isPlain_lit _ (by decide)).append hwords.1).append hcount).append hepoch).append hnotice

/-! ## Clicks -/

theorem isPlain_val_md (s : String) : IsPlain (md (val s)) := isPlain_md (written_val s)

theorem isPlain_countryDisplayBold (code : Json) : IsPlain (countryDisplayBold lib md code) := by
  unfold countryDisplayBold
  dsimp only
  split
  · rename_i hcode
    have halpha : ∀ c ∈ (pyStr lib code).toList, c.isAlpha = true := by
      simp only [isCountryCode, Bool.and_eq_true, List.all_eq_true] at hcode
      exact hcode.2
    have hupper : ∀ c ∈ (pyStr lib code).toList.map Char.toUpper, IsClean c := by
      intro c hc
      obtain ⟨d, hd, rfl⟩ := List.mem_map.1 hc
      exact isClean_toUpper (halpha d hd)
    exact (((isPlain_ofChars fun c => isClean_flag).append (isPlain_lit _ (by decide))).append
      (isPlain_ofChars hupper)).append (isPlain_lit _ (by decide))
  · exact isPlain_md (written_ofChars (by decide) _)

theorem isPlain_campaignOf (payload : PyDict String Json) : IsPlain (campaignOf lib md payload) := by
  unfold campaignOf
  split
  · exact isPlain_nil
  · refine isPlain_intercalate (isPlain_lit _ (by decide)) ?_
    intro t ht
    obtain ⟨e, -, rfl⟩ := List.mem_map.1 ht
    exact isPlain_val_md _

theorem isPlain_placeLines {t : Text} (h : t ∈ placeLines lib md payload) : IsPlain t := by
  unfold placeLines at h
  dsimp only at h
  split at h
  · rw [List.mem_singleton.1 h]
    refine (isPlain_countryDisplayBold _).append ?_
    split
    · simpa using (isPlain_lit "  " (by decide)).append (isPlain_val_md _)
    · exact isPlain_nil
  · split at h
    · exact List.mem_singleton.1 h ▸ isPlain_val_md _
    · cases h

theorem isPlain_deviceText (lib : CopyLib) (payload : PyDict String Json) :
    IsPlain (deviceText lib md payload) := by
  unfold deviceText
  dsimp only
  have hsoftware : IsPlain (List.intercalate (lit " on ")
      ((["browser", "os"].filter fun field => present lib (get payload field)).map fun field =>
        md (val (pyStr lib (get payload field))))) := by
    refine isPlain_intercalate (isPlain_lit _ (by decide)) ?_
    intro t ht
    obtain ⟨field, -, rfl⟩ := List.mem_map.1 ht
    exact isPlain_val_md _
  split
  · refine IsPlain.append ?_ (isPlain_val_md _)
    split
    · exact hsoftware.append (isPlain_lit _ (by decide))
    · exact isPlain_nil
  · exact hsoftware

theorem isPlain_sourceText {t : Text} (h : sourceText lib md payload = some t) : IsPlain t := by
  unfold sourceText at h
  split at h
  · obtain ⟨host, hhost, rfl⟩ := Option.map_eq_some_iff.1 h
    exact ((isPlain_lit _ (by decide)).append (isPlain_md (written_referrerHost hhost))).append
      (isPlain_lit _ (by decide))
  · exact Option.some.inj h ▸ isPlain_lit _ (by decide)

theorem isPlain_campaignText (lib : CopyLib) (payload : PyDict String Json) :
    IsPlain (campaignText lib md payload) := by
  unfold campaignText
  dsimp only
  split
  · exact ((isPlain_lit _ (by decide)).append (isPlain_campaignOf payload)).append (isPlain_lit _ (by decide))
  · exact isPlain_nil

theorem isPlain_botLines {t : Text} (h : t ∈ botLines lib md payload) : IsPlain t := by
  unfold botLines at h
  split at h
  · rw [List.mem_singleton.1 h]
    split
    · exact ((isPlain_lit _ (by decide)).append (isPlain_val_md _)).append (isPlain_lit _ (by decide))
    · exact isPlain_lit _ (by decide)
  · cases h

theorem isPlain_clickedSummary {lines : List Text} {count : Option Text}
    (h : clickedSummary lib md payload = some (lines, count)) :
    (∀ t ∈ lines, IsPlain t) ∧ ∀ t, count = some t → IsPlain t := by
  obtain ⟨source, hsource, hsummary⟩ := Option.map_eq_some_iff.1 h
  obtain ⟨rfl, rfl⟩ := Prod.mk.inj hsummary
  constructor
  · intro t ht
    obtain ⟨line, hline, rfl⟩ := List.mem_map.1 ht
    refine IsPlain.clip ?_ valueMax
    simp only [List.mem_append, List.mem_singleton] at hline
    rcases hline with ((hplace | hdevice) | rfl) | hbot
    · exact isPlain_placeLines hplace
    · split at hdevice
      · exact List.mem_singleton.1 hdevice ▸ isPlain_deviceText lib payload
      · cases hdevice
    · exact (isPlain_sourceText hsource).append (isPlain_campaignText lib payload)
    · exact isPlain_botLines hbot
  · intro t ht
    obtain ⟨total, -, rfl⟩ := Option.map_eq_some_iff.1 ht
    exact isPlain_ofChars fun c => isClean_thousands

/-! ## The substance -/

/-- The names of the changes of a payload. -/
def changedNames (payload : PyDict String Json) : List String :=
  ((ClickStream.loadObject (get payload "changes")).map (·.keys)).getD []

/-- A change as it may stand in a fenced block. -/
structure IsFenceable (change : Text × Text × Text) : Prop where
  name : Written change.1
  ticks : ∀ g ∈ change.1, isTick g = false
  old : Written change.2.1
  new : Written change.2.2

theorem isFenceable_updatedChanges (hnames : ∀ name ∈ changedNames payload, '\x60' ∉ name.toList)
    {change : Text × Text × Text} (h : change ∈ updatedChanges lib payload) : IsFenceable change := by
  unfold updatedChanges at h
  cases hchanges : ClickStream.loadObject (get payload "changes") with
  | none =>
    rw [hchanges] at h
    cases h
  | some changes =>
    rw [hchanges] at h
    obtain ⟨entry, hentry, rfl⟩ := List.mem_map.1 h
    have hname : ∀ g ∈ val entry.1, isTick g = false := by
      intro g hg
      obtain ⟨c, hc, rfl⟩ := List.mem_map.1 hg
      refine decide_eq_false fun htick => ?_
      have hkey : entry.1 ∈ changedNames payload := by
        rw [changedNames, hchanges]
        exact List.mem_map_of_mem hentry
      exact hnames entry.1 hkey (htick ▸ hc)
    split
    · exact ⟨written_val _, hname, written_fmt lib _, written_fmt lib _⟩
    · exact ⟨written_val _, hname, written_fmt lib .null, written_fmt lib entry.2⟩

/-- A line of a diff: a sign of the code, the name and the value. -/
theorem unfenced_diffLines {change : Text × Text × Text} (h : IsFenceable change) {line : Text}
    (hline : line ∈ diffLines change) : Unfenced line ∧ Written line := by
  have hall : ∀ sign : String, (∀ g ∈ lit sign, isTick g = false) → lit sign ≠ [] → ∀ value, Written value →
      Unfenced (lit sign ++ change.1 ++ lit ": " ++ fence value) ∧
        Written (lit sign ++ change.1 ++ lit ": " ++ fence value) := by
    intro sign hsign hne value hvalue
    have hticks : ∀ g ∈ lit sign ++ change.1 ++ lit ": ", isTick g = false := by
      intro g hg
      rcases List.mem_append.1 hg with hg | hg
      · rcases List.mem_append.1 hg with hg | hg
        · exact hsign g hg
        · exact h.ticks g hg
      · have hcolon : ∀ g ∈ lit ": ", isTick g = false := by decide
        exact hcolon g hg
    refine ⟨⟨?_, ?_⟩, (((written_lit _).append h.name).append (written_lit _)).append (written_fence hvalue)⟩
    · rw [hasFence_append_of_forall hticks]
      exact hasFence_fence value
    · intro g hg
      cases hs : lit sign with
      | nil => exact absurd hs hne
      | cons x xs =>
        rw [hs] at hg
        have hx : x = g := Option.some.inj hg
        exact hsign g (hs ▸ hx ▸ List.mem_cons_self)
  rcases List.mem_cons.1 hline with rfl | hline
  · exact hall "- " (by decide) (by decide) _ h.old
  · rw [List.mem_singleton.1 hline]
    exact hall "+ " (by decide) (by decide) _ h.new

theorem isFenced_diff {changes : List (Text × Text × Text)} (h : ∀ change ∈ changes, IsFenceable change) :
    IsFenced (lit "```diff\n" ++ List.intercalate (lit "\n") (changes.flatMap diffLines) ++ lit "\n```") := by
  have hlines : ∀ line ∈ changes.flatMap diffLines, Unfenced line ∧ Written line := by
    intro line hline
    obtain ⟨change, hchange, hline⟩ := List.mem_flatMap.1 hline
    exact unfenced_diffLines (h change hchange) hline
  have hnone : Unfenced (List.intercalate (lit "\n") (changes.flatMap diffLines)) :=
    intercalate_induction (unfenced_of_forall (by simp)) (fun _ _ => Unfenced.append)
      (unfenced_of_forall (by decide)) fun line hline => (hlines line hline).1
  have hword : ∀ g ∈ lit "diff\n", isTick g = false := by decide
  exact isFenced_block hword (Written.intercalate (written_lit _) fun line hline => (hlines line hline).2)
    hnone.none

theorem isFenced_code {code : Text} (h : Written code) :
    IsFenced (lit "```json\n" ++ fence code ++ lit "\n```") := by
  have hword : ∀ g ∈ lit "json\n", isTick g = false := by decide
  exact isFenced_block hword (written_fence h) (hasFence_fence code)

/-- A pair as it may be displayed: its name is one of the code. -/
def IsSoundPair (pair : String × Text) : Prop :=
  isUnmarked pair.1 = true ∧ Written pair.2

theorem isSoundPair_mk {name : String} {t : Text} (hname : isUnmarked name = true) (ht : Written t) :
    IsSoundPair (name, t) := ⟨hname, ht⟩

theorem isSoundPair_created (link : PyDict String Json) {pair : String × Text}
    (h : pair ∈ createdPairs lib link) : IsSoundPair pair := by
  simp only [createdPairs, List.mem_cons, List.not_mem_nil, or_false] at h
  rcases h with rfl | rfl | rfl | rfl | rfl | rfl | rfl
  · exact isSoundPair_mk (by decide) (written_datePart _)
  · refine isSoundPair_mk (by decide) ?_
    cases asInt (get link "max_clicks") with
    | none => exact written_lit _
    | some n => exact written_ofChars (by decide) _
  · exact isSoundPair_mk (by decide) (written_lit _)
  · exact isSoundPair_mk (by decide) (written_lit _)
  · exact isSoundPair_mk (by decide) (written_lit _)
  · refine isSoundPair_mk (by decide) ?_
    split
    · exact written_countOf _ _ _
    · exact written_lit _
  · refine isSoundPair_mk (by decide) ?_
    split
    · exact written_countOf _ _ _
    · exact written_lit _

theorem isSoundPair_lifetime {link : PyDict String Json} {pair : String × Text}
    (h : pair ∈ lifetimePairs link) : IsSoundPair pair := by
  unfold lifetimePairs at h
  split at h
  · rw [List.mem_singleton.1 h]
    exact isSoundPair_mk (by decide) (written_ofChars (by decide) _)
  · cases h

theorem isSoundPair_age {link : PyDict String Json} {pair : String × Text}
    (h : pair ∈ agePairs lib link timestamp) : IsSoundPair pair := by
  unfold agePairs at h
  split at h
  · rw [List.mem_singleton.1 h]
    refine isSoundPair_mk (by decide) ?_
    split
    · exact written_lit _
    · exact (written_ofChars (by decide) _).append (written_lit _)
  · cases h

theorem isSoundPair_lifecycle {pairs : List (String × Text)}
    (h : lifecyclePairs lib eventType payload timestamp = some pairs) : ∀ pair ∈ pairs, IsSoundPair pair := by
  have hrest : ∀ pair ∈ (if present lib (get (linkOf eventType payload) "long_url") then
        [("Destination", fmt lib (get (linkOf eventType payload) "long_url"))] else []) ++
      (if eventType = "link.created" then createdPairs lib (linkOf eventType payload) else []) ++
      (if eventType = "link.deleted" ∨ eventType = "link.expired" then
        lifetimePairs (linkOf eventType payload) else []) ++
      (if eventType = "link.deleted" then agePairs lib (linkOf eventType payload) timestamp else []),
      IsSoundPair pair := by
    intro pair hpair
    simp only [List.mem_append] at hpair
    rcases hpair with ((hpair | hpair) | hpair) | hpair
    all_goals split at hpair
    · rw [List.mem_singleton.1 hpair]
      exact isSoundPair_mk (by decide) (written_fmt lib _)
    · cases hpair
    · exact isSoundPair_created _ hpair
    · cases hpair
    · exact isSoundPair_lifetime hpair
    · cases hpair
    · exact isSoundPair_age hpair
    · cases hpair
  unfold lifecyclePairs at h
  dsimp only at h
  split at h
  · obtain ⟨reason, hreason, rfl⟩ := Option.map_eq_some_iff.1 h
    intro pair hpair
    rcases List.mem_cons.1 hpair with rfl | hpair
    · exact isSoundPair_mk (by decide) (written_reasonOf hreason)
    · exact hrest pair hpair
  · obtain rfl := Option.some.inj h
    exact hrest

/-- The fields of a copy that its substance is made from. -/
structure HasSubstance (copy : Copy) : Prop where
  lines : ∀ line ∈ copy.lines, Written line
  pairs : ∀ pair ∈ copy.pairs, IsSoundPair pair
  changes : ∀ change ∈ copy.changes, IsFenceable change
  code : ∀ code, copy.code = some code → Written code

theorem hasSubstance_buildCopy (hnames : ∀ name ∈ changedNames payload, '\x60' ∉ name.toList)
    (hclick : eventType ≠ "link.clicked") (h : buildCopy lib eventType timestamp payload = some copy) :
    HasSubstance copy := by
  unfold buildCopy at h
  dsimp only at h
  rw [if_neg hclick] at h
  split at h
  · rw [← Option.some.inj h]
    refine ⟨?_, by simp [commonCopy], by simp [commonCopy], by simp [commonCopy]⟩
    intro line hline
    dsimp only at hline
    split at hline
    · exact List.mem_singleton.1 hline ▸ (written_val _).clip _
    · cases hline
  · split at h
    · rw [← Option.some.inj h]
      exact ⟨by simp [commonCopy], by simp [commonCopy], fun change => isFenceable_updatedChanges hnames,
        by simp [commonCopy]⟩
    · split at h
      · obtain ⟨pairs, hpairs, rfl⟩ := Option.map_eq_some_iff.1 h
        exact ⟨by simp [commonCopy], isSoundPair_lifecycle hpairs, by simp [commonCopy], by simp [commonCopy]⟩
      · rw [← Option.some.inj h]
        refine ⟨by simp [commonCopy], by simp [commonCopy], by simp [commonCopy], ?_⟩
        intro code hcode
        exact Option.some.inj hcode ▸ (written_val _).clip _

theorem isDisplay_substance (h : HasSubstance copy) {t : Text} (ht : t ∈ substance copy) : IsDisplay t := by
  unfold substance at ht
  split at ht
  · rw [List.mem_singleton.1 ht]
    exact .inr (isFenced_diff h.changes)
  · split at ht
    · rw [List.mem_singleton.1 ht]
      refine .inl (isPlain_intercalate (isPlain_lit _ (by decide)) ?_)
      intro line hline
      obtain ⟨pair, hpair, rfl⟩ := List.mem_map.1 hline
      obtain ⟨hname, hvalue⟩ := h.pairs pair (List.mem_of_mem_filter hpair)
      exact (((isPlain_lit _ (by decide)).append (isPlain_lit _ hname)).append
        (isPlain_lit _ (by decide))).append (isPlain_md hvalue)
    · split at ht
      · rename_i g code hcode
        rw [List.mem_singleton.1 ht]
        exact .inr (isFenced_code (h.code _ hcode))
      · split at ht
        · rw [List.mem_singleton.1 ht]
          refine .inl (isPlain_intercalate (isPlain_lit _ (by decide)) ?_)
          intro line hline
          obtain ⟨text, htext, rfl⟩ := List.mem_map.1 hline
          exact isPlain_md (h.lines text htext)
        · cases ht

theorem displays_append (xs ys : List Component) : displays (xs ++ ys) = displays xs ++ displays ys :=
  List.filterMap_append ..

theorem displays_tds (texts : List Text) : displays (tds texts) = texts := by
  induction texts with
  | nil => rfl
  | cons t ts ih => exact congrArg (t :: ·) ih

/-- Before the budget every display is plain or fenced. -/
theorem isDisplay_compose (hnames : ∀ name ∈ changedNames payload, '\x60' ∉ name.toList)
    {components : List Component} (h : compose lib eventType timestamp payload = some components) {t : Text}
    (ht : t ∈ displays components) : IsDisplay t := by
  simp only [compose, bind, Option.bind_eq_some_iff] at h
  obtain ⟨copy, hcopy, head, hhead, body, hbody, h⟩ := h
  obtain rfl := Option.some.inj h
  have hsound := sound_buildCopy hcopy
  have hparts : (∀ t ∈ body.1, IsDisplay t) ∧ ∀ count, body.2 = some count → IsPlain count := by
    unfold bodyOf at hbody
    split at hbody
    · obtain ⟨summary, hsummary, rfl⟩ := Option.map_eq_some_iff.1 hbody
      obtain ⟨hlines, hcount⟩ := isPlain_clickedSummary hsummary
      refine ⟨?_, hcount⟩
      intro t ht
      rw [List.mem_singleton.1 ht]
      exact .inl (isPlain_intercalate (isPlain_lit _ (by decide)) hlines)
    · rename_i hclick
      rw [← Option.some.inj hbody]
      exact ⟨fun t => isDisplay_substance (hasSubstance_buildCopy hnames hclick hcopy), by simp⟩
  simp only [displays_append, displays_tds, List.mem_append, List.mem_singleton] at ht
  rcases ht with (((ht | ht) | ht) | ht) | ht
  · rcases ht with rfl | ht
    · exact .inl (isPlain_heading hsound hhead)
    · exact .inl (isPlain_subtitle hsound ht)
  · cases ht
  · exact hparts.1 t ht
  · cases ht
  · rw [ht]
    exact .inl (isPlain_footer hsound hparts.2 _)

end

/-! ## The budget -/

/-- The first of the components with the most content. -/
def biggest (components : List Component) : Text :=
  ((components.find? fun c => c.content.length = longest components).map Component.content).getD []

theorem exists_modify_findIdx {α : Type} (p : α → Bool) (f : α → α) {xs : List α} (h : ∃ x ∈ xs, p x = true) :
    ∃ pre x post, xs = pre ++ x :: post ∧ p x = true ∧ xs.find? p = some x ∧
      xs.modify (xs.findIdx p) f = pre ++ f x :: post := by
  induction xs with
  | nil =>
    obtain ⟨x, hx, -⟩ := h
    cases hx
  | cons y ys ih =>
    cases hy : p y with
    | true => exact ⟨[], y, ys, rfl, hy, by simp [hy], by simp [List.findIdx_cons, hy]⟩
    | false =>
      have hrest : ∃ x ∈ ys, p x = true := by
        obtain ⟨x, hx, hp⟩ := h
        rcases List.mem_cons.1 hx with rfl | hx
        · rw [hy] at hp
          cases hp
        · exact ⟨x, hx, hp⟩
      obtain ⟨pre, x, post, hys, hp, hfind, hmodify⟩ := ih hrest
      refine ⟨y :: pre, x, post, by rw [hys]; rfl, hp, by simpa [hy] using hfind, ?_⟩
      rw [List.findIdx_cons, hy, cond_false, List.modify_succ_cons, hmodify]
      rfl

theorem exists_longest {components : List Component} (h : components ≠ []) :
    ∃ c ∈ components, c.content.length = longest components := by
  induction components with
  | nil => exact absurd rfl h
  | cons c cs ih =>
    have hlongest : longest (c :: cs) = max c.content.length (longest cs) := rfl
    by_cases hle : longest cs ≤ c.content.length
    · exact ⟨c, List.mem_cons_self, by rw [hlongest, Nat.max_eq_left hle]⟩
    · have hne : cs ≠ [] := by
        rintro rfl
        exact hle (Nat.zero_le _)
      obtain ⟨d, hd, hlength⟩ := ih hne
      exact ⟨d, List.mem_cons_of_mem _ hd, by rw [hlongest, hlength]; omega⟩

theorem totalLength_append_cons (pre post : List Component) (c : Component) :
    totalLength (pre ++ c :: post) = totalLength pre + c.content.length + totalLength post := by
  simp [totalLength, Nat.add_assoc]

theorem totalLength_eq (components : List Component) :
    totalLength components = ((displays components).map List.length).sum := by
  induction components with
  | nil => rfl
  | cons c cs ih =>
    cases c with
    | text content => exact congrArg (content.length + ·) ih
    | separator spacing divider => exact (Nat.zero_add _).trans ih

/-- What the budget does to components that are over it. -/
theorem exists_budget {components : List Component} (h : textMax < totalLength components) :
    ∃ pre c post, components = pre ++ c :: post ∧ biggest components = c.content ∧
      budget components =
        pre ++ c.clip (max 1 (c.content.length - (totalLength components - textMax))) :: post := by
  have hne : components ≠ [] := by
    rintro rfl
    exact absurd h (by decide)
  obtain ⟨c, hc, hlongest⟩ := exists_longest hne
  obtain ⟨pre, c, post, hsplit, hp, hfind, hmodify⟩ := exists_modify_findIdx
    (fun c => c.content.length = longest components)
    (Component.clip (max 1 (longest components - (totalLength components - textMax))))
    ⟨c, hc, decide_eq_true hlongest⟩
  have hlength : c.content.length = longest components := of_decide_eq_true hp
  refine ⟨pre, c, post, hsplit, by rw [biggest, hfind]; rfl, ?_⟩
  rw [budget, if_pos h, hmodify, hlength]

theorem length_clip (t : Text) {n : Nat} (h : 1 ≤ n) : (clip t n).length = min t.length n := by
  unfold clip
  split
  · rename_i hle
    exact (Nat.min_eq_left hle).symm
  · rw [List.length_append, List.length_take]
    have hone : (lit "…").length = 1 := by decide
    omega

theorem length_content_clip (c : Component) {n : Nat} (h : 1 ≤ n) :
    (c.clip n).content.length = min c.content.length n := by
  cases c with
  | text content => exact length_clip content h
  | separator spacing divider => exact (Nat.zero_min n).symm

theorem length_biggest (components : List Component) : (biggest components).length = longest components := by
  by_cases hne : components = []
  · rw [hne]
    rfl
  · obtain ⟨c, hc, hlength⟩ := exists_longest hne
    obtain ⟨pre, d, post, -, hp, hfind, -⟩ := exists_modify_findIdx
      (fun c => c.content.length = longest components) id ⟨c, hc, decide_eq_true hlength⟩
    rw [biggest, hfind]
    exact of_decide_eq_true hp

theorem totalLength_of_longest {components : List Component} (h : longest components = 0) :
    totalLength components = 0 := by
  induction components with
  | nil => rfl
  | cons c cs ih =>
    have hmax : max c.content.length (longest cs) = 0 := h
    have hcs := ih (by omega)
    have htotal : totalLength (c :: cs) = c.content.length + totalLength cs := rfl
    omega

/-- The total is within the budget exactly where the other displays leave room for a character. -/
theorem totalLength_budget_le_iff (components : List Component) :
    totalLength (budget components) ≤ textMax ↔
      totalLength components - (biggest components).length < textMax := by
  by_cases hover : textMax < totalLength components
  · obtain ⟨pre, c, post, hsplit, hbiggest, hbudget⟩ := exists_budget hover
    have htotal := totalLength_append_cons pre post c
    have hclip := length_content_clip c
      (Nat.le_max_left 1 (c.content.length - (totalLength components - textMax)))
    rw [← hsplit] at htotal
    rw [hbiggest, hbudget, totalLength_append_cons]
    omega
  · have hpositive : totalLength components - longest components < textMax := by
      have hmax : 0 < textMax := by decide
      rcases Nat.eq_zero_or_pos (longest components) with hzero | hlongest
      · have htotal := totalLength_of_longest hzero
        omega
      · omega
    rw [budget, if_neg hover, length_biggest]
    exact iff_of_true (Nat.not_lt.1 hover) hpositive

/-- A display of the budgeted components was one before, or is what is left of the longest. -/
theorem mem_displays_budget {components : List Component} {t : Text} (h : t ∈ displays (budget components)) :
    t ∈ displays components ∨
      biggest components ∈ displays components ∧ ∃ n, t = clip (biggest components) n := by
  by_cases hover : textMax < totalLength components
  · obtain ⟨pre, c, post, hsplit, hbiggest, hbudget⟩ := exists_budget hover
    rw [hbudget, displays_append, List.mem_append] at h
    rw [hbiggest, hsplit, displays_append]
    cases c with
    | separator spacing divider =>
      refine .inl (List.mem_append.2 (h.imp_right ?_))
      exact id
    | text content =>
      rcases h with h | h
      · exact .inl (List.mem_append_left _ h)
      · rcases List.mem_cons.1 h with rfl | h
        · exact .inr ⟨List.mem_append_right _ List.mem_cons_self, _, rfl⟩
        · exact .inl (List.mem_append_right _ (List.mem_cons_of_mem _ h))
  · rw [budget, if_neg hover] at h
    exact .inl h

/-! ## The names of a change -/

theorem mem_changedNames_data {event : LinkUpdated} {name : String} :
    name ∈ changedNames event.data ↔ name ∈ event.changes.keys := by
  have hnames : changedNames event.data =
      (PyDict.ofList (event.changes.entries.map fun e =>
        (e.1, Json.obj [("old", e.2.old), ("new", e.2.new)]))).keys := rfl
  rw [hnames, PyDict.mem_keys_ofList, List.map_map]
  exact Iff.rfl

/-- No field of an update has a backtick in its name. -/
theorem tick_not_mem_changedNames {isoformat : Datetime → String} {existing : UrlV2Doc}
    {dest : Option UrlDestination} {ops : UrlOps} (link : PyDict String Json) :
    ∀ name ∈ changedNames (LinkUpdated.data ⟨link, eventChanges isoformat existing dest ops⟩),
      '\x60' ∉ name.toList := by
  intro name hname
  rw [mem_changedNames_data, mem_keys_eventChanges] at hname
  obtain ⟨field, hfield, -, -, rfl⟩ := hname
  have hfields : ∀ name ∈ ["long_url", "alias", "domain", "password", "max_clicks", "expire_after", "starts_at",
      "pre_start_url", "block_bots", "private_stats", "status", "geo_rules", "tag_ids", "ab_variants",
      "expired_redirect_url", "meta_tags", "dest", "updated_at"], '\x60' ∉ (publicKey name).toList := by decide
  exact hfields field.1 (List.mem_map_of_mem (f := Prod.fst) hfield)

/-! ## Runs -/

/-- ASCII texts, numbers as JSON and one date. -/
def sampleLib : CopyLib where
  text := UrlSplit.asciiText
  dumps
    | .null => "null"
    | .bool b => if b then "true" else "false"
    | .num n => toString n
    | _ => ""
  repr _ := ""
  fromisoformat s := if s = "2026-07-24T14:32:00+00:00" then some (.aware 1784903520000000) else none
  timestamp := toUnixTimestamp

/-- A snapshot, of a link with an underscore. -/
def sampleLink : Json :=
  .obj [("link_id", .str "665f1f77bcf86cd799439011"),
    ("alias", .str "summer_drop"),
    ("domain", .str "spoo.me"),
    ("short_url", .str "https://spoo.me/summer_drop"),
    ("long_url", .str "https://example.com/campaign"),
    ("status", .str "ACTIVE"),
    ("password_protected", .bool false),
    ("block_bots", .bool false),
    ("max_clicks", .null),
    ("expires_at", .null),
    ("starts_at", .null),
    ("pre_start_url", .null),
    ("geo_rules", .null),
    ("tag_ids", .arr []),
    ("ab_variants", .null),
    ("meta_tags", .null),
    ("total_clicks", .num 4102),
    ("created_at", .str "2026-07-01T09:00:00+00:00")]

/-- The payload of an update of four addresses. -/
def samplePayload (url : String) : PyDict String Json :=
  PyDict.ofList [("link", sampleLink),
    ("changes", .obj (["long_url", "pre_start_url", "expired_redirect_url", "alias"].map fun name =>
      (name, .obj [("old", .str url), ("new", .str url)])))]

/-- The heading of the update. -/
def sampleHeading : Text :=
  lit "### " ++ md (lit "Link updated") ++ lit "  [" ++ md (val "spoo.me" ++ lit "/" ++ val "summer_drop") ++
    lit "](" ++ linkTarget (val "https://spoo.me/summer_drop") ++ lit ")"

/-- The diff of the update. -/
def sampleDiff (url : List Char) : Text :=
  lit "```diff\n" ++ List.intercalate (lit "\n")
    ((["long_url", "pre_start_url", "expired_redirect_url", "alias"].map fun name =>
      (val name, clip (ofChars .value url) valueMax, clip (ofChars .value url) valueMax)).flatMap diffLines) ++
    lit "\n```"

/-- The components of the update. -/
def sampleComponents (url : List Char) : List Component :=
  [.text sampleHeading, .separator 1 true, .text (sampleDiff url), .separator 2 false,
    .text (lit "-# updated   <t:1784903520:R>")]

theorem compose_sample (url : String) :
    compose sampleLib "link.updated" "2026-07-24T14:32:00+00:00" (samplePayload url) =
      some (sampleComponents url.toList) := by
  rfl

theorem body_sample (url : String) :
    body sampleLib "link.updated" "2026-07-24T14:32:00+00:00" (samplePayload url) =
      some ⟨0x5865F2, budget (sampleComponents url.toList)⟩ := by
  rw [body, compose_sample]
  rfl

/-! ## The body -/

/-- Whatever the payload, the displays of a body read well that the budget leaves whole, and all of them where
the longest one has no fence. They keep to the budget where the others leave room in it. -/
theorem displays_body {lib : CopyLib} {eventType timestamp : String} {payload : PyDict String Json} {b : Body}
    (hnames : ∀ name ∈ changedNames payload, '\x60' ∉ name.toList)
    (h : body lib eventType timestamp payload = some b) :
    ∃ components, compose lib eventType timestamp payload = some components ∧
      (totalLength components - (biggest components).length < textMax →
        ((displays b.components).map List.length).sum ≤ textMax) ∧
      (∀ t ∈ displays b.components,
        t ∈ displays components ∨ hasFence isTick (withoutTarget (biggest components)) = false → ReadsWell t) ∧
      ∀ t ∈ displays b.components, Encoded t := by
  obtain ⟨components, hcompose, rfl⟩ := Option.map_eq_some_iff.1 h
  have hdisplay : ∀ t ∈ displays components, IsDisplay t := fun t => isDisplay_compose hnames hcompose
  refine ⟨components, hcompose, ?_, ?_, ?_⟩
  · intro hroom
    rw [← totalLength_eq]
    exact (totalLength_budget_le_iff components).2 hroom
  · intro t ht hwhole
    rcases mem_displays_budget ht with hbefore | ⟨hbiggest, n, rfl⟩
    · exact (hdisplay t hbefore).readsWell
    · rcases hwhole with hbefore | hnone
      · exact (hdisplay _ hbefore).readsWell
      · exact (((hdisplay _ hbiggest).isPlain hnone).clip n).reads.wellFormed
  · intro t ht
    rcases mem_displays_budget ht with hbefore | ⟨hbiggest, n, rfl⟩
    · exact (hdisplay t hbefore).encoded
    · exact (hdisplay _ hbiggest).encoded.clip n

/-- An update of a short address is shown whole. -/
theorem displays_body_sample :
    ∃ b,
      body sampleLib "link.updated" "2026-07-24T14:32:00+00:00" (samplePayload "https://example.com/a") =
        some b ∧
      ∃ components,
        compose sampleLib "link.updated" "2026-07-24T14:32:00+00:00" (samplePayload "https://example.com/a") =
          some components ∧
        (totalLength components - (biggest components).length < textMax →
          ((displays b.components).map List.length).sum ≤ textMax) ∧
        (∀ t ∈ displays b.components,
          t ∈ displays components ∨ hasFence isTick (withoutTarget (biggest components)) = false →
            ReadsWell t) ∧
        ∀ t ∈ displays b.components, Encoded t :=
  ⟨_, body_sample _, displays_body (by decide +kernel) (body_sample _)⟩

/-- A control character from a value, in the target of a link too. -/
def isUnsafe (g : Glyph) : Bool := decide (g.origin ≠ .code) && isMarkdown g

/-- Four addresses of six hundred characters each, old and new: the diff is cut and loses the fence that closes
it, and the underscore stands in the target of the heading as it is. -/
theorem diff_cut_open :
    ∃ b, body sampleLib "link.updated" "2026-07-24T14:32:00+00:00"
        (samplePayload (String.ofList (List.replicate 600 'x'))) = some b ∧
      (∃ t ∈ displays b.components, ¬Closed isTick t) ∧
      ∃ t ∈ displays b.components, Closed isTick t ∧ ¬WellFormed isSlash isTick isUnsafe t := by
  have hlive : ∃ piece ∈ outside (pieces isTick sampleHeading), ∃ g ∈ live isSlash false piece,
      isUnsafe g = true := by decide +kernel
  refine ⟨_, body_sample _, ?_, ?_⟩
  · rw [String.toList_ofList]
    decide +kernel
  · rw [String.toList_ofList]
    refine ⟨sampleHeading, by decide +kernel, by decide +kernel, ?_⟩
    intro hreads
    obtain ⟨piece, hpiece, g, hg, hunsafe⟩ := hlive
    rw [hreads.escaped piece hpiece g hg] at hunsafe
    cases hunsafe

end Spoo.Renderers.Discord
