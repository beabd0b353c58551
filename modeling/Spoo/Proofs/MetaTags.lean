import Spoo.Services.MetaTags.ParseHtml

/-!
# What is read from a hostile page

The head of a page has, for each key, a first tag that says something, and a first title element. The title,
the description and the image are to follow them, first the `og:` tags, then the `twitter:` tags, then HTML;
the images that are reported are https URLs; and there is an answer for every page. `meta_tags_read_iff` has
the pages on which `parse_meta_tags` does so. It raises where an image or the best icon does not split as a
URL, and where the size of an icon has more digits than `int` reads; it reports an image without any text;
and it puts the texts of all title elements together.
-/

namespace Spoo.MetaTags

open UrlSplit

variable {lib : TextLib}

/-! ## The head of a page -/

/-- `</head>` or `<body>`. -/
def HtmlEvent.stops : HtmlEvent → Bool
  | .startTag tag _ => tag = "body"
  | .endTag tag => tag = "head"
  | .data _ => false

/-- What is read of a page. -/
def headOf (page : List HtmlEvent) : List HtmlEvent := page.takeWhile fun event => !event.stops

def HtmlEvent.opensTitle : HtmlEvent → Bool
  | .startTag tag _ => tag = "title"
  | _ => false

def HtmlEvent.closesTitle : HtmlEvent → Bool
  | .endTag tag => tag = "title"
  | _ => false

def HtmlEvent.text? : HtmlEvent → Option String
  | .data text => some text
  | _ => none

variable (lib) in
def HtmlEvent.item? : HtmlEvent → Option (String × String)
  | .startTag tag attrs => if tag = "meta" then metaItem lib attrs else none
  | _ => none

variable (lib) in
def HtmlEvent.icon? : HtmlEvent → Option Icon
  | .startTag tag attrs => if tag = "link" then linkIcon lib attrs else none
  | _ => none

variable (lib) in
/-- The content of the first tag of a key. -/
def firstTag (page : List HtmlEvent) (key : String) : Option String :=
  (headOf page).findSome? fun event =>
    (event.item? lib).bind fun item => if item.1 = key then some item.2 else none

variable (lib) in
/-- The declared icons. -/
def iconsOf (page : List HtmlEvent) : List Icon := (headOf page).filterMap (·.icon? lib)

/-- What comes behind the first `<title>`. -/
def afterTitle (page : List HtmlEvent) : List HtmlEvent :=
  ((headOf page).dropWhile fun event => !event.opensTitle).tail

/-- The texts in title elements, where the first of them may be open already. -/
def titleTexts : Bool → List HtmlEvent → List String
  | _, [] => []
  | isOpen, event :: events =>
    (if isOpen then event.text?.toList else []) ++
      titleTexts (event.opensTitle || isOpen && !event.closesTitle) events

/-- The text of the first title element. -/
def firstTitle (page : List HtmlEvent) : List String :=
  ((afterTitle page).takeWhile fun event => !event.closesTitle).filterMap HtmlEvent.text?

/-- The texts of the other title elements. -/
def laterTitles (page : List HtmlEvent) : List String :=
  titleTexts false ((afterTitle page).dropWhile fun event => !event.closesTitle)

/-- What the page gives as its title: no text is no title. -/
def titleOf (page : List HtmlEvent) : Option String :=
  (some (pyStrip (String.join (firstTitle page)))).filter (· ≠ "")

/-! ## What the collector holds -/

variable (lib) in
/-- The collector after a call that does not stop it. -/
def MetaCollector.after (self : MetaCollector) (event : HtmlEvent) : MetaCollector where
  tags := (event.item? lib).elim self.tags fun item => self.tags.setdefault item.1 item.2
  titleParts := self.titleParts ++ (if self.inTitle then event.text?.toList else [])
  icons := self.icons ++ (event.icon? lib).toList
  inTitle := event.opensTitle || self.inTitle && !event.closesTitle

theorem MetaCollector.handle_eq (self : MetaCollector) (event : HtmlEvent) :
    self.handle lib event = if event.stops then none else some (self.after lib event) := by
  cases event with
  | startTag tag attrs =>
    simp only [handle, handleStarttag, HtmlEvent.stops, after, HtmlEvent.item?, HtmlEvent.icon?,
      HtmlEvent.opensTitle, HtmlEvent.closesTitle, HtmlEvent.text?, decide_eq_true_eq]
    by_cases hbody : tag = "body"
    · rw [if_pos hbody, if_pos hbody]
    rw [if_neg hbody, if_neg hbody]
    by_cases htitle : tag = "title"
    · simp [htitle]
    by_cases hlink : tag = "link"
    · simp [hlink]
    by_cases hmeta : tag = "meta"
    · subst hmeta
      cases metaItem lib attrs <;> simp
    · simp [htitle, hlink, hmeta]
  | endTag tag =>
    by_cases htitle : tag = "title"
    · simp [handle, handleEndtag, HtmlEvent.stops, after, HtmlEvent.item?, HtmlEvent.icon?,
        HtmlEvent.opensTitle, HtmlEvent.closesTitle, HtmlEvent.text?, htitle]
    · simp [handle, handleEndtag, HtmlEvent.stops, after, HtmlEvent.item?, HtmlEvent.icon?,
        HtmlEvent.opensTitle, HtmlEvent.closesTitle, HtmlEvent.text?, htitle]
  | data text =>
    obtain ⟨tags, titleParts, icons, inTitle⟩ := self
    cases inTitle with
    | false => simp [handle, handleData, HtmlEvent.stops, after, HtmlEvent.item?, HtmlEvent.icon?,
        HtmlEvent.opensTitle]
    | true => simp [handle, handleData, HtmlEvent.stops, after, HtmlEvent.item?, HtmlEvent.icon?,
        HtmlEvent.opensTitle, HtmlEvent.closesTitle, HtmlEvent.text?]

/-- The collector reads the head, call after call. -/
theorem MetaCollector.feed_eq (events : List HtmlEvent) : ∀ self : MetaCollector,
    self.feed lib events = (headOf events).foldl (MetaCollector.after lib) self := by
  induction events with
  | nil => exact fun self => rfl
  | cons event events ih =>
    intro self
    simp only [feed, handle_eq, headOf, List.takeWhile_cons]
    cases event.stops with
    | true => rfl
    | false => exact ih _

theorem MetaCollector.foldl_after (events : List HtmlEvent) : ∀ self : MetaCollector,
    let read := events.foldl (MetaCollector.after lib) self
    (∀ key, read.tags.get? key = (self.tags.get? key).or (events.findSome? fun event =>
      (event.item? lib).bind fun item => if item.1 = key then some item.2 else none)) ∧
      read.titleParts = self.titleParts ++ titleTexts self.inTitle events ∧
      read.icons = self.icons ++ events.filterMap (·.icon? lib) := by
  induction events with
  | nil => exact fun self => ⟨fun key => by simp, by simp [titleTexts], by simp⟩
  | cons event events ih =>
    intro self
    obtain ⟨htags, htitle, hicons⟩ := ih (self.after lib event)
    refine ⟨fun key => ?_, ?_, ?_⟩
    · rw [List.foldl_cons, htags, List.findSome?_cons]
      simp only [after]
      cases event.item? lib with
      | none => rfl
      | some item =>
        rw [Option.elim_some, PyDict.get?_setdefault, Option.bind_some, Option.or_assoc]
        split <;> rfl
    · rw [List.foldl_cons, htitle, titleTexts]
      simp only [after, List.append_assoc]
    · rw [List.foldl_cons, hicons, List.filterMap_cons]
      simp only [after]
      cases event.icon? lib <;> simp

/-- The collector of a page. -/
theorem collector_spec (page : List HtmlEvent) :
    let read := MetaCollector.feed lib {} page
    (∀ key, read.tags.get? key = firstTag lib page key) ∧
      read.titleParts = titleTexts false (headOf page) ∧ read.icons = iconsOf lib page := by
  obtain ⟨htags, htitle, hicons⟩ := @MetaCollector.foldl_after lib (headOf page) {}
  intro read
  have hread : read = (headOf page).foldl (MetaCollector.after lib) {} := MetaCollector.feed_eq page {}
  rw [hread]
  refine ⟨fun key => ?_, htitle, hicons⟩
  rw [htags]
  exact Option.none_or

/-! ## Titles -/

/-- Until a title is open, there are no texts. -/
theorem titleTexts_false (events : List HtmlEvent) : titleTexts false events =
    titleTexts true (events.dropWhile fun event => !event.opensTitle).tail := by
  induction events with
  | nil => rfl
  | cons event events ih =>
    rw [titleTexts, if_neg Bool.false_ne_true, List.nil_append, Bool.false_and, Bool.or_false,
      List.dropWhile_cons]
    cases event.opensTitle with
    | true => rfl
    | false => exact ih

/-- The texts of the open title are those up to its end. -/
theorem titleTexts_true (events : List HtmlEvent) : titleTexts true events =
    (events.takeWhile fun event => !event.closesTitle).filterMap HtmlEvent.text? ++
      titleTexts false (events.dropWhile fun event => !event.closesTitle) := by
  induction events with
  | nil => rfl
  | cons event events ih =>
    rw [titleTexts, if_pos rfl, Bool.true_and, List.takeWhile_cons, List.dropWhile_cons]
    cases hclose : event.closesTitle with
    | true =>
      -- The end of a title opens no other one and holds no text.
      cases event with
      | endTag tag => rfl
      | startTag tag attrs => cases hclose
      | data text => cases hclose
    | false =>
      rw [Bool.not_false, Bool.or_true, if_pos rfl, if_pos rfl, List.filterMap_cons, ih]
      cases event.text? <;> rfl

theorem titleTexts_head (page : List HtmlEvent) :
    titleTexts false (headOf page) = firstTitle page ++ laterTitles page := by
  rw [titleTexts_false, titleTexts_true]
  rfl

/-- The titles together are read as the first one just when the others are blank. -/
theorem htmlTitle_eq_iff (page : List HtmlEvent) :
    (some (pyStrip (String.join (titleTexts false (headOf page))))).filter (· ≠ "") = titleOf page ↔
      ∀ text ∈ laterTitles page, ∀ c ∈ text.toList, isPySpace c = true := by
  have hstrip (text : String) : (pyStrip text).toList = PyList.strip isPySpace text.toList := String.toList_ofList
  have hfilter (a b : String) :
      (some a).filter (fun text => decide (text ≠ "")) = (some b).filter (fun text => decide (text ≠ "")) ↔
        a = b := by
    by_cases ha : a = "" <;> by_cases hb : b = "" <;> simp [Option.filter, ha, hb, eq_comm]
  rw [titleOf, hfilter, titleTexts_head, ← String.toList_inj, hstrip, hstrip, String.join_append,
    String.toList_append, PyList.strip_append_eq_iff, String.toList_join]
  simp only [List.mem_flatMap]
  exact ⟨fun h text htext c hc => h c ⟨text, htext, hc⟩, fun h c ⟨text, htext, hc⟩ => h text htext c hc⟩

/-! ## Tag families -/

theorem startsWith_iff {lead value : String} : startsWith lead value = true ↔ lead.toList <+: value.toList :=
  List.isPrefixOf_iff_prefix

/-- A family holds the tags of its lead under the rest of their keys. -/
theorem get?_family (lead name : String) (tags : PyDict String String) :
    (family lead tags).get? name = tags.get? (lead ++ name) := by
  refine PyDict.get?_renameKeys ?_ fun key hkey => ?_
  · have hstart : startsWith lead (lead ++ name) = true := by
      rw [startsWith_iff, String.toList_append]
      exact List.prefix_append _ _
    rw [if_pos hstart, String.toList_append, List.drop_left, String.ofList_toList]
  · by_cases hstart : startsWith lead key = true
    · rw [if_pos hstart, Option.some.injEq] at hkey
      obtain ⟨rest, hrest⟩ := startsWith_iff.1 hstart
      rw [← hrest, List.drop_left] at hkey
      rw [← String.toList_inj, String.toList_append, ← hrest, ← hkey, String.toList_ofList]
    · rw [if_neg hstart] at hkey
      cases hkey

/-! ## The rule -/

/-- There is a text. -/
def HasText (value : Option String) : Prop := ∃ text, value = some text ∧ text ≠ ""

instance (value : Option String) : Decidable (HasText value) :=
  match value with
  | none => isFalse nofun
  | some text => decidable_of_iff (text ≠ "") ⟨fun h => ⟨text, rfl, h⟩, fun ⟨_, h, hne⟩ => by cases h; exact hne⟩

/-- First `og:`, then `twitter:`, then HTML. -/
def byPrecedence (og twitter html : Option String) : Option String :=
  if HasText og then og else if HasText twitter then twitter else html

theorem pyOr_of_text {a : Option String} (ha : HasText a) (b : Option String) : pyOr a b = a := by
  obtain ⟨text, rfl, htext⟩ := ha
  simp [pyOr, Option.filter, htext]

theorem pyOr_of_no_text {a : Option String} (ha : ¬HasText a) (b : Option String) : pyOr a b = b := by
  cases a with
  | none => rfl
  | some text =>
    have htext : text = "" := by
      by_contra hne
      exact ha ⟨text, rfl, hne⟩
    simp [pyOr, Option.filter, htext]

theorem pyOr_pyOr (og twitter html : Option String) :
    pyOr (pyOr og twitter) html = byPrecedence og twitter html := by
  unfold byPrecedence
  by_cases hog : HasText og
  · rw [pyOr_of_text hog, pyOr_of_text hog, if_pos hog]
  · rw [pyOr_of_no_text hog, if_neg hog]
    by_cases htwitter : HasText twitter
    · rw [pyOr_of_text htwitter, if_pos htwitter]
    · rw [pyOr_of_no_text htwitter, if_neg htwitter]

variable (lib) in
/-- The tag from which a page's title, description or image is taken, where HTML has `html`. -/
def pickTag (page : List HtmlEvent) (name : String) (html : Option String) : Option String :=
  byPrecedence (firstTag lib page ("og:" ++ name)) (firstTag lib page ("twitter:" ++ name)) html

variable (lib) in
/-- What is reported follows the first tags, and the images are https URLs. -/
structure FollowsTags (page : List HtmlEvent) (base : String) (parsed : ParsedMeta) : Prop where
  image_https : ∀ image, parsed.image = some image → "https://".toList <+: image.toList
  favicon_https : ∀ favicon, parsed.favicon = some favicon → "https://".toList <+: favicon.toList
  title : parsed.title = pickTag lib page "title" (titleOf page)
  description : parsed.description = pickTag lib page "description" (firstTag lib page "description")
  image : parsed.image =
    (pickTag lib page "image" none).bind fun image => (httpsJoin lib base (pyStrip image)).join

/-- Of the icons with the best score the first one. -/
structure WinsScore (icons : List Icon) (icon : Icon) : Prop where
  mem : icon ∈ icons
  best : ∀ other ∈ icons, other.score.getD 0 ≤ icon.score.getD 0
  first : ∀ other ∈ icons, icon.score.getD 0 ≤ other.score.getD 0 → icons.idxOf icon ≤ icons.idxOf other

variable (lib) in
/-- The pages on which nothing goes wrong. -/
structure Harmless (page : List HtmlEvent) : Prop where
  image_splits : ∀ image, pickTag lib page "image" none = some image →
    (urlsplit lib (pyStrip image).toList).isSome
  image_text : HasText (firstTag lib page "og:image") ∨ firstTag lib page "twitter:image" ≠ some ""
  sizes_short : ∀ icon ∈ iconsOf lib page, icon.isAppleTouch = false →
    (leadingDigits icon.sizes).length ≤ intMaxStrDigits
  icon_splits : ∀ icon, WinsScore (iconsOf lib page) icon → (urlsplit lib icon.href.toList).isSome
  title_once : HasText (firstTag lib page "og:title") ∨ HasText (firstTag lib page "twitter:title") ∨
    ∀ text ∈ laterTitles page, ∀ c ∈ text.toList, isPySpace c = true

/-! ## The image -/

theorem httpsJoin_https {base url image : String} (h : httpsJoin lib base url = some (some image)) :
    "https://".toList <+: image.toList := by
  obtain ⟨resolved, -, hresolved⟩ := Option.map_eq_some_iff.1 h
  by_cases hhttps : "https://".toList.isPrefixOf resolved = true
  · rw [if_pos hhttps, Option.some.injEq] at hresolved
    rw [← hresolved, @String.toList_ofList resolved]
    exact List.isPrefixOf_iff_prefix.1 hhttps
  · rw [if_neg hhttps] at hresolved
    cases hresolved

theorem httpsJoin_isSome {base : String} (hbase : (urlsplit lib base.toList).isSome = true) (hne : base ≠ "")
    (url : String) : (httpsJoin lib base url).isSome = (urlsplit lib url.toList).isSome := by
  rw [httpsJoin, Option.isSome_map, urljoin_isSome hbase]
  rwa [ne_eq, String.toList_eq_nil_iff]

/-- A text is joined to the base. -/
theorem pickImage_of_text {base : String} {og twitter : Option String} {image : String}
    (h : byPrecedence og twitter none = some image) :
    pickImage lib (pyOr og twitter) base = httpsJoin lib base (pyStrip image) := by
  have hpick {value : Option String} (htext : HasText value) (hvalue : value = some image) :
      pickImage lib value base = httpsJoin lib base (pyStrip image) := by
    obtain ⟨text, htext, hne⟩ := htext
    rw [hvalue, Option.some.injEq] at htext
    rw [hvalue, pickImage, if_neg (htext ▸ hne)]
  unfold byPrecedence at h
  split at h
  · rename_i hog
    rw [pyOr_of_text hog]
    exact hpick hog h
  · rename_i hog
    rw [pyOr_of_no_text hog]
    split at h
    · rename_i htwitter
      exact hpick htwitter h
    · cases h

/-- Without a text, what the `twitter:` tag holds is reported as it is. -/
theorem pickImage_of_no_text {base : String} {og twitter : Option String}
    (h : byPrecedence og twitter none = none) :
    pickImage lib (pyOr og twitter) base = some twitter ∧ ¬HasText og ∧
      (twitter = none ∨ twitter = some "") := by
  unfold byPrecedence at h
  split at h
  · rename_i hog
    obtain ⟨text, hog, -⟩ := hog
    rw [h] at hog
    cases hog
  · rename_i hog
    rw [pyOr_of_no_text hog]
    split at h
    · rename_i htwitter
      obtain ⟨text, htwitter, -⟩ := htwitter
      rw [h] at htwitter
      cases htwitter
    · rename_i htwitter
      cases twitter with
      | none => exact ⟨rfl, hog, .inl rfl⟩
      | some text =>
        have htext : text = "" := by
          by_contra hne
          exact htwitter ⟨text, rfl, hne⟩
        subst htext
        exact ⟨rfl, hog, .inr rfl⟩

/-- There is an image as the tags have it when its text splits and is not an empty one. -/
theorem pickImage_iff {base : String} (hbase : (urlsplit lib base.toList).isSome = true) (hne : base ≠ "")
    (og twitter : Option String) :
    (∃ image, pickImage lib (pyOr og twitter) base = some image ∧
        (∀ url, image = some url → "https://".toList <+: url.toList) ∧
        image = (byPrecedence og twitter none).bind fun image => (httpsJoin lib base (pyStrip image)).join) ↔
      (∀ image, byPrecedence og twitter none = some image → (urlsplit lib (pyStrip image).toList).isSome) ∧
        (HasText og ∨ twitter ≠ some "") := by
  cases hpick : byPrecedence og twitter none with
  | some image =>
    have htext : HasText og ∨ twitter ≠ some "" := by
      by_contra hno
      rw [not_or, not_not] at hno
      obtain ⟨hog, rfl⟩ := hno
      rw [byPrecedence, if_neg hog, if_neg (by decide)] at hpick
      cases hpick
    rw [pickImage_of_text hpick]
    constructor
    · rintro ⟨url, hurl, -⟩
      refine ⟨fun image' himage' => ?_, htext⟩
      cases himage'
      rw [← httpsJoin_isSome hbase hne, hurl]
      rfl
    · rintro ⟨hsplit, -⟩
      have hjoin := hsplit image rfl
      rw [← httpsJoin_isSome hbase hne, Option.isSome_iff_exists] at hjoin
      obtain ⟨url, hurl⟩ := hjoin
      refine ⟨url, hurl, fun https hhttps => httpsJoin_https (hhttps ▸ hurl), ?_⟩
      rw [Option.bind_some, hurl]
      rfl
  | none =>
    obtain ⟨hpicked, hog, htwitter⟩ := @pickImage_of_no_text lib base _ _ hpick
    rw [hpicked]
    constructor
    · rintro ⟨image, himage, -, hrule⟩
      refine ⟨nofun, .inr fun hempty => ?_⟩
      rw [Option.bind_none] at hrule
      rw [hempty, hrule] at himage
      cases himage
    · rintro ⟨-, htext⟩
      have hnone : twitter = none := htwitter.resolve_right (htext.resolve_left hog)
      exact ⟨none, by rw [hnone], nofun, rfl⟩

/-! ## The favicon -/

theorem pyInt_isSome {digits : List Char} (hdigits : ∀ c ∈ digits, (Py.decimalValue c).isSome = true) :
    (pyInt digits).isSome = decide (digits.length ≤ intMaxStrDigits) := by
  unfold pyInt
  split
  · rename_i hlength
    rw [Py.int?_isSome (String.ofList digits) (by rwa [String.toList_ofList]), decide_eq_true hlength]
  · rename_i hlength
    rw [decide_eq_false hlength]
    rfl

/-- A score is there unless the size has too many digits. -/
theorem score_isSome_iff (icon : Icon) : icon.score.isSome = true ↔
    (icon.isAppleTouch = false → (leadingDigits icon.sizes).length ≤ intMaxStrDigits) := by
  unfold Icon.score
  cases icon.isAppleTouch with
  | true => simp
  | false =>
    rw [if_neg Bool.false_ne_true]
    have hdecimal : ∀ c ∈ leadingDigits icon.sizes, (Py.decimalValue c).isSome = true :=
      fun c hc => List.mem_takeWhile_imp (p := fun c => (Py.decimalValue c).isSome) hc
    cases hdigits : leadingDigits icon.sizes with
    | nil => simp
    | cons digit digits =>
      rw [hdigits] at hdecimal
      rw [pyInt_isSome hdecimal, decide_eq_true_eq]
      exact ⟨fun h _ => h, fun h => h rfl⟩

theorem winsScore_iff {icons : List Icon} {icon : Icon} :
    (icons.argmax fun icon => icon.score.getD 0) = some icon ↔ WinsScore icons icon := by
  rw [List.argmax_eq_some_iff]
  exact ⟨fun ⟨hmem, hbest, hfirst⟩ => ⟨hmem, hbest, hfirst⟩, fun h => ⟨h.mem, h.best, h.first⟩⟩

theorem favicon_ico_splits : (urlsplit lib "/favicon.ico".toList).isSome = true :=
  urlsplit_isSome_of_no_netloc (by decide)

/-- The icon is picked without an error when every score and the best icon's URL can be read. -/
theorem pickFavicon_isSome_iff {base : String} (hbase : (urlsplit lib base.toList).isSome = true)
    (hne : base ≠ "") (icons : List Icon) :
    (pickFavicon lib icons base).isSome = true ↔
      (∀ icon ∈ icons, icon.isAppleTouch = false → (leadingDigits icon.sizes).length ≤ intMaxStrDigits) ∧
        ∀ icon, WinsScore icons icon → (urlsplit lib icon.href.toList).isSome = true := by
  have hscores : (icons.mapM Icon.score).isSome = true ↔
      ∀ icon ∈ icons, icon.isAppleTouch = false → (leadingDigits icon.sizes).length ≤ intMaxStrDigits := by
    rw [PyList.mapM_isSome]
    exact forall₂_congr fun icon _ => score_isSome_iff icon
  rw [← hscores]
  unfold pickFavicon bestIcon
  cases icons.mapM Icon.score with
  | none => simp
  | some scores =>
    simp only [Option.map_some, Option.bind_eq_bind, Option.bind_some, Option.isSome_some, true_and,
      httpsJoin_isSome hbase hne]
    cases hbest : icons.argmax fun icon => icon.score.getD 0 with
    | none =>
      rw [List.argmax_eq_none] at hbest
      subst hbest
      exact ⟨fun _ icon hicon => absurd hicon.mem List.not_mem_nil, fun _ => favicon_ico_splits⟩
    | some best =>
      constructor
      · intro hsplit icon hicon
        rw [← winsScore_iff, hbest] at hicon
        cases hicon
        exact hsplit
      · exact fun hsplit => hsplit best (winsScore_iff.1 hbest)

theorem pickFavicon_https {base favicon : String} {icons : List Icon}
    (h : pickFavicon lib icons base = some (some favicon)) : "https://".toList <+: favicon.toList := by
  obtain ⟨best, -, hjoin⟩ := Option.bind_eq_some_iff.1 h
  exact httpsJoin_https hjoin

/-! ## The page -/

variable (lib) in
/-- An absolute https URL. -/
def IsHttpsUrl (base : String) : Prop :=
  "https://".toList <+: base.toList ∧ (urlsplit lib base.toList).isSome = true

section

variable {parser : String → List HtmlEvent} {html base : String}

/-- The two steps that may raise. -/
theorem parseMetaTags_of_some {image favicon : Option String}
    (himage : pickImage lib (pyOr (firstTag lib (parser html) "og:image")
      (firstTag lib (parser html) "twitter:image")) base = some image)
    (hfavicon : pickFavicon lib (iconsOf lib (parser html)) base = some favicon) :
    ∃ parsed, parseMetaTags lib parser html base = some parsed := by
  obtain ⟨htags, -, hicons⟩ := @collector_spec lib (parser html)
  have hpicked : pickImage lib
      (pyOr ((family "og:" (MetaCollector.feed lib {} (parser html)).tags).get? "image")
        ((family "twitter:" (MetaCollector.feed lib {} (parser html)).tags).get? "image")) base = some image := by
    rw [get?_family, get?_family, htags, htags]
    exact himage
  rw [← hicons] at hfavicon
  rw [← Option.isSome_iff_exists]
  unfold parseMetaTags
  simp only [hpicked, hfavicon, Option.bind_eq_bind, Option.bind_some]
  rfl

/-- What is reported. -/
theorem parseMetaTags_fields {parsed : ParsedMeta} (h : parseMetaTags lib parser html base = some parsed) :
    pickImage lib (pyOr (firstTag lib (parser html) "og:image") (firstTag lib (parser html) "twitter:image"))
        base = some parsed.image ∧
      pickFavicon lib (iconsOf lib (parser html)) base = some parsed.favicon ∧
      parsed.description = pickTag lib (parser html) "description" (firstTag lib (parser html) "description") ∧
      parsed.title = pickTag lib (parser html) "title"
        ((some (pyStrip (String.join (titleTexts false (headOf (parser html)))))).filter (· ≠ "")) := by
  obtain ⟨htags, htitle, hicons⟩ := @collector_spec lib (parser html)
  unfold parseMetaTags at h
  simp only [Option.bind_eq_bind, Option.bind_eq_some_iff, get?_family, htags, pyOr_pyOr] at h
  obtain ⟨image, himage, favicon, hfavicon, h⟩ := h
  cases h
  rw [hicons] at hfavicon
  exact ⟨himage, hfavicon, rfl, by rw [htitle]; rfl⟩

theorem pickTag_title_iff (page : List HtmlEvent) :
    pickTag lib page "title"
        ((some (pyStrip (String.join (titleTexts false (headOf page))))).filter (· ≠ "")) =
      pickTag lib page "title" (titleOf page) ↔
      HasText (firstTag lib page "og:title") ∨ HasText (firstTag lib page "twitter:title") ∨
        ∀ text ∈ laterTitles page, ∀ c ∈ text.toList, isPySpace c = true := by
  have hog : "og:" ++ "title" = "og:title" := by decide
  have htwitter : "twitter:" ++ "title" = "twitter:title" := by decide
  unfold pickTag byPrecedence
  rw [hog, htwitter, ← htmlTitle_eq_iff]
  by_cases hhas : HasText (firstTag lib page "og:title")
  · simp only [if_pos hhas, true_iff]
    exact .inl hhas
  · rw [if_neg hhas, if_neg hhas, or_iff_right hhas]
    by_cases hhas : HasText (firstTag lib page "twitter:title")
    · simp only [if_pos hhas, true_iff]
      exact .inl hhas
    · rw [if_neg hhas, if_neg hhas, or_iff_right hhas]

/-- The pages that get an answer which follows their tags. -/
theorem meta_tags_read_iff (hbase : IsHttpsUrl lib base) :
    (∃ parsed, parseMetaTags lib parser html base = some parsed ∧ FollowsTags lib (parser html) base parsed) ↔
      Harmless lib (parser html) := by
  have hne : base ≠ "" := by
    rintro rfl
    exact absurd hbase.1 (by decide)
  have himage := pickImage_iff hbase.2 hne (firstTag lib (parser html) "og:image")
    (firstTag lib (parser html) "twitter:image")
  have hfavicon := pickFavicon_isSome_iff hbase.2 hne (iconsOf lib (parser html))
  constructor
  · rintro ⟨parsed, hparsed, hfollows⟩
    obtain ⟨hpicked, hicon, -, htitle⟩ := parseMetaTags_fields hparsed
    obtain ⟨hsplits, htext⟩ := himage.1 ⟨_, hpicked, hfollows.image_https, hfollows.image⟩
    obtain ⟨hsizes, hicons⟩ := hfavicon.1 (by rw [hicon]; rfl)
    exact ⟨hsplits, htext, hsizes, hicons, (pickTag_title_iff _).1 (htitle.symm.trans hfollows.title)⟩
  · intro hharmless
    obtain ⟨image, hpicked, hhttps, hrule⟩ := himage.2 ⟨hharmless.image_splits, hharmless.image_text⟩
    obtain ⟨favicon, hicon⟩ := Option.isSome_iff_exists.1
      (hfavicon.2 ⟨hharmless.sizes_short, hharmless.icon_splits⟩)
    obtain ⟨parsed, hparsed⟩ := parseMetaTags_of_some hpicked hicon
    obtain ⟨hpicked', hicon', hdescription, htitle⟩ := parseMetaTags_fields hparsed
    rw [hpicked, Option.some.injEq] at hpicked'
    refine ⟨parsed, hparsed, ?_, fun url hurl => ?_, ?_, hdescription, hpicked' ▸ hrule⟩
    · exact hpicked' ▸ hhttps
    · exact pickFavicon_https (hurl ▸ hicon')
    · exact htitle.trans ((pickTag_title_iff _).2 hharmless.title_once)

end

/-- A page with a title, an image and an icon. -/
def plainHtml : String := "<title> A page </title><meta property='og:image' content='/i.png'>" ++
  "<link rel='icon' href='/i.ico' sizes='32x32'></head>"

/-- Its tags and texts. -/
def plainPage : List HtmlEvent :=
  [.startTag "title" [], .data " A page ", .endTag "title",
    .startTag "meta" [("property", some "og:image"), ("content", some "/i.png")],
    .startTag "link" [("rel", some "icon"), ("href", some "/i.ico"), ("sizes", some "32x32")], .endTag "head"]

/-- A parser that knows the page. -/
def plainParser (html : String) : List HtmlEvent := if html = plainHtml then plainPage else []

theorem meta_tags_read_iff_plain :
    ∃ parsed, parseMetaTags asciiText plainParser plainHtml "https://a.io/" = some parsed ∧
      FollowsTags asciiText (plainParser plainHtml) "https://a.io/" parsed := by
  have hpage : plainParser plainHtml = plainPage := if_pos rfl
  have hicons : iconsOf asciiText plainPage = [⟨"icon", "/i.ico", "32x32"⟩] := by decide
  refine (@meta_tags_read_iff asciiText plainParser plainHtml "https://a.io/" ?_).2 ?_
  · exact ⟨by decide, by decide⟩
  rw [hpage]
  refine ⟨fun image himage => ?_, ?_, ?_, ?_, ?_⟩
  · have hpick : pickTag asciiText plainPage "image" none = some "/i.png" := by decide
    rw [hpick, Option.some.injEq] at himage
    subst himage
    decide
  · exact .inl (by decide)
  · rw [hicons]
    decide
  · intro icon hicon
    have hmem := hicon.mem
    rw [hicons, List.mem_singleton] at hmem
    subst hmem
    decide
  · exact .inr (.inr (by decide))

/-- An image whose URL opens a bracket. -/
def bracketHtml : String := "<meta property='og:image' content='https://['>"

/-- What the parser finds in it. -/
def bracketParser (html : String) : List HtmlEvent :=
  if html = bracketHtml then [.startTag "meta" [("property", some "og:image"), ("content", some "https://[")]]
  else []

/-- The page raises. -/
theorem bracket_image_raises : IsHttpsUrl asciiText "https://a.io/" ∧
    parseMetaTags asciiText bracketParser bracketHtml "https://a.io/" = none := by
  refine ⟨⟨by decide, by decide⟩, ?_⟩
  decide

end Spoo.MetaTags
