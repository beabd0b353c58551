import Spoo.Services.Click.Events

/-!
# What comes back from the click stream

Every field of an event is read as it was written, and the validators run again on what is read. The event
that they build is the one that was sent when they leave its campaign values alone, that is, when none of
these ends in a space: the cut at 100 characters can leave one there, and it is stripped on the way back.
The password of the link is not on the stream.
-/

namespace Spoo.ClickStream

variable {Time : Type} {lib : WireLib Time}

/-! ## Values -/

theorem loadStr_str (value : String) : loadStr (.str value) = some value := rfl

theorem loadBool_bool (value : Bool) : loadBool lib (.bool value) = some value := rfl

theorem loadInt_num (value : Int) : loadInt lib (.num value) = some value := rfl

theorem loadOption_of_ne_null {α : Type} {load : Json → Option α} {value : Json} (h : value ≠ .null) :
    loadOption load value = (load value).map some := by
  cases value with
  | null => exact absurd rfl h
  | bool | num | str | arr | obj => rfl

theorem loadOption_dump {α : Type} {load : Json → Option α} {dump : α → Json} (value : Option α)
    (hload : ∀ a, load (dump a) = some a) (hdump : ∀ a, dump a ≠ .null) :
    loadOption load (dumpOption dump value) = some value := by
  cases value with
  | none => rfl
  | some a =>
    have hnull : dumpOption dump (some a) ≠ .null := hdump a
    rw [loadOption_of_ne_null hnull]
    exact congrArg (Option.map some) (hload a)

@[simp] theorem loadStr_dump (value : Option String) :
    loadOption loadStr (dumpOption .str value) = some value :=
  loadOption_dump value (fun _ => rfl) nofun

@[simp] theorem loadInt_dump (value : Option Int) :
    loadOption (loadInt lib) (dumpOption .num value) = some value :=
  loadOption_dump value (fun _ => rfl) nofun

theorem loadVariant_dump (variant : AbVariant) : loadVariant lib (dumpVariant variant) = some variant :=
  dif_pos variant.weight_bounds

@[simp] theorem loadVariants_dump (variants : Option (List AbVariant)) :
    loadOption (loadVariants lib) (dumpOption (fun variants => .arr (variants.map dumpVariant)) variants) =
      some variants := by
  refine loadOption_dump variants (fun variants => ?_) nofun
  show (variants.map dumpVariant).mapM (loadVariant lib) = some variants
  rw [List.mapM_map]
  induction variants with
  | nil => rfl
  | cons variant variants ih =>
    rw [List.mapM_cons, Function.comp_apply, loadVariant_dump, ih]
    rfl

theorem loadRules_dumpRules (rules : PyDict String String) : loadRules (dumpRules rules) = some rules := by
  have hnodup : ((rules.entries.map fun e => (e.1, Json.str e.2)).map Prod.fst).Nodup := by
    rw [List.map_map]
    exact rules.nodup
  have hrules (entries : List (String × String)) :
      (entries.map fun e => (e.1, Json.str e.2)).mapM (fun e => (loadStr e.2).map (e.1, ·)) = some entries := by
    induction entries with
    | nil => rfl
    | cons e entries ih =>
      rw [List.map_cons, List.mapM_cons, ih]
      rfl
  unfold loadRules dumpRules loadObject
  rw [Option.bind_eq_bind, Option.bind_some, PyDict.entries_ofList hnodup, hrules]
  exact congrArg some (PyDict.ofList_entries rules)

@[simp] theorem loadRules_dump (rules : Option (PyDict String String)) :
    loadOption loadRules (dumpOption dumpRules rules) = some rules :=
  loadOption_dump rules loadRules_dumpRules nofun

/-! ## Objects -/

theorem nodup_dumpUrl (url : UrlCacheData) : ((dumpUrl url).map Prod.fst).Nodup := by
  show List.Nodup ["id", "alias", "long_url", "block_bots", "password_hash", "expiration_time", "max_clicks",
    "url_status", "schema_version", "owner_id", "total_clicks", "domain", "geo_rules", "expired_redirect_url",
    "ab_variants", "meta_title", "meta_description", "meta_image", "meta_color", "meta_image_width",
    "meta_image_height", "start_time", "pre_start_url"]
  decide

theorem bind_object {β : Type} {fields : List (String × Json)} {rest : PyDict String Json → Option β} :
    (loadObject (.obj fields) >>= rest) = rest (PyDict.ofList fields) := rfl

theorem bind_required {α β : Type} {load : Json → Option α} {field : Option Json} {value : Json} {a : α}
    {rest : α → Option β} (hfield : field = some value) (hload : load value = some a) :
    (required load field >>= rest) = rest a := by
  rw [hfield, required, Option.bind_some, hload, Option.bind_eq_bind, Option.bind_some]

theorem bind_defaulted {α β : Type} {default : α} {load : Json → Option α} {field : Option Json} {value : Json}
    {a : α} {rest : α → Option β} (hfield : field = some value) (hload : load value = some a) :
    (defaulted default load field >>= rest) = rest a := by
  rw [hfield, defaulted, Option.elim_some, hload, Option.bind_eq_bind, Option.bind_some]

/-- The cached link is read as it was written: no field is written under `_id`, and the id is found by name. -/
theorem loadUrl_dump (url : UrlCacheData) : loadUrl lib (.obj (dumpUrl url)) = some url := by
  have hget (name : String) {value : Json} : (dumpUrl url).find? (fun e => e.1 = name) = some (name, value) →
      (PyDict.ofList (dumpUrl url)).get? name = some value := PyDict.get?_ofList (nodup_dumpUrl url)
  have hid : (PyDict.ofList (dumpUrl url)).get? "_id" = none :=
    PyDict.get?_ofList_eq_none (nodup_dumpUrl url) rfl
  unfold loadUrl
  rw [bind_object, hid, Option.none_or,
    bind_required (hget "id" rfl) (loadStr_str _),
    bind_required (hget "alias" rfl) (loadStr_str _),
    bind_required (hget "long_url" rfl) (loadStr_str _),
    bind_required (hget "block_bots" rfl) (loadBool_bool _),
    bind_required (hget "password_hash" rfl) (loadStr_dump _),
    bind_required (hget "expiration_time" rfl) (loadInt_dump _),
    bind_required (hget "max_clicks" rfl) (loadInt_dump _),
    bind_required (hget "url_status" rfl) (loadStr_str _),
    bind_required (hget "schema_version" rfl) (loadStr_str _),
    bind_required (hget "owner_id" rfl) (loadStr_dump _),
    bind_defaulted (hget "total_clicks" rfl) (loadInt_num _),
    bind_defaulted (hget "domain" rfl) (loadStr_str _),
    bind_defaulted (hget "geo_rules" rfl) (loadRules_dump _),
    bind_defaulted (hget "expired_redirect_url" rfl) (loadStr_dump _),
    bind_defaulted (hget "ab_variants" rfl) (loadVariants_dump _),
    bind_defaulted (hget "meta_title" rfl) (loadStr_dump _),
    bind_defaulted (hget "meta_description" rfl) (loadStr_dump _),
    bind_defaulted (hget "meta_image" rfl) (loadStr_dump _),
    bind_defaulted (hget "meta_color" rfl) (loadStr_dump _),
    bind_defaulted (hget "meta_image_width" rfl) (loadInt_dump _),
    bind_defaulted (hget "meta_image_height" rfl) (loadInt_dump _),
    bind_defaulted (hget "start_time" rfl) (loadInt_dump _),
    bind_defaulted (hget "pre_start_url" rfl) (loadStr_dump _)]
  rfl

theorem nodup_dumpFields (fields : ClickFields Time) : ((dumpFields lib fields).map Prod.fst).Nodup := by
  show List.Nodup ["short_code", "schema_key", "is_emoji", "url", "client_ip", "user_agent", "referrer",
    "cf_city", "resolved_country", "geo_matched", "variant_index", "utm_source", "utm_medium", "utm_campaign",
    "redirect_ms", "enqueued_at"]
  decide

theorem loadFields_dump {fields : ClickFields Time}
    (htime : lib.readTime (lib.showTime fields.enqueuedAt) = some fields.enqueuedAt) :
    loadFields lib (.obj (dumpFields lib fields)) = some fields := by
  have hget (name : String) {value : Json} : (dumpFields lib fields).find? (fun e => e.1 = name) =
      some (name, value) → (PyDict.ofList (dumpFields lib fields)).get? name = some value :=
    PyDict.get?_ofList (nodup_dumpFields fields)
  have hload : loadTime lib (.str (lib.showTime fields.enqueuedAt)) = some fields.enqueuedAt := htime
  unfold loadFields
  rw [bind_object,
    bind_required (hget "short_code" rfl) (loadStr_str _),
    bind_required (hget "schema_key" rfl) (loadStr_str _),
    bind_required (hget "is_emoji" rfl) (loadBool_bool _),
    bind_required (hget "url" rfl) (loadUrl_dump _),
    bind_required (hget "client_ip" rfl) (loadStr_str _),
    bind_required (hget "user_agent" rfl) (loadStr_str _),
    bind_required (hget "referrer" rfl) (loadStr_dump _),
    bind_required (hget "cf_city" rfl) (loadStr_dump _),
    bind_defaulted (hget "resolved_country" rfl) (loadStr_dump _),
    bind_defaulted (hget "geo_matched" rfl) (loadBool_bool _),
    bind_defaulted (hget "variant_index" rfl) (loadInt_dump _),
    bind_defaulted (hget "utm_source" rfl) (loadStr_dump _),
    bind_defaulted (hget "utm_medium" rfl) (loadStr_dump _),
    bind_defaulted (hget "utm_campaign" rfl) (loadStr_dump _),
    bind_required (hget "redirect_ms" rfl) (loadInt_num _),
    bind_defaulted (hget "enqueued_at" rfl) hload]
  rfl

/-! ## The validators, again -/

/-- The text ends in a space. -/
def EndsInSpace (value : String) : Prop := ∃ c, value.toList.getLast? = some c ∧ isPySpace c = true

instance : DecidablePred EndsInSpace := fun value =>
  decidable_of_iff (value.toList.getLast?.any isPySpace = true) (by
    rw [EndsInSpace, Option.any_eq_true_iff_get]
    exact ⟨fun ⟨h, hc⟩ => ⟨_, (Option.some_get h).symm, hc⟩, fun ⟨c, hlast, hc⟩ => by simp [hlast, hc]⟩)

/-- A value that was cleaned is cleaned once more: all that can go is what the cut left at its end. -/
theorem cleanUtm_cleanUtm (given : String) :
    cleanUtm (String.ofList (cleanUtm given)) = (cleanUtm given).rdropWhile isPySpace := by
  have hchars : ∀ c ∈ cleanUtm given, (!isControlChar c) = true := by
    intro c hc
    have hstrip := List.mem_of_mem_take hc
    have hfilter := (List.dropWhile_suffix _).subset ((List.rdropWhile_prefix _ _).subset hstrip)
    exact (List.mem_filter.1 hfilter).2
  have hlength : ((cleanUtm given).rdropWhile isPySpace).length ≤ utmMaxLen :=
    (List.rdropWhile_prefix _ _).length_le.trans (List.length_take_le _ _)
  have hfront : (cleanUtm given).dropWhile isPySpace = cleanUtm given := PyList.dropWhile_take_strip _ _ _
  have hunfold (text : String) : cleanUtm text =
      (PyList.strip isPySpace (text.toList.filter fun c => !isControlChar c)).take utmMaxLen := rfl
  rw [hunfold (String.ofList _), String.toList_ofList, List.filter_eq_self.2 hchars, PyList.strip, hfront,
    List.take_of_length_le hlength]

theorem rdropWhile_eq_self_iff (value : List Char) :
    value.rdropWhile isPySpace = value ↔ ¬EndsInSpace (String.ofList value) := by
  rw [List.rdropWhile_eq_self_iff, EndsInSpace, String.toList_ofList]
  constructor
  · rintro h ⟨c, hlast, hc⟩
    have hne : value ≠ [] := by
      rintro rfl
      cases hlast
    rw [List.getLast?_eq_some_getLast hne, Option.some.injEq] at hlast
    exact h hne (hlast ▸ hc)
  · exact fun h hne hc => h ⟨_, List.getLast?_eq_some_getLast hne, hc⟩

/-- A value keeps what its validator made of it unless that ends in a space. -/
theorem sanitizeUtm_twice_iff (given : Option String) : sanitizeUtm (sanitizeUtm given) = sanitizeUtm given ↔
    ∀ value ∈ sanitizeUtm given, ¬EndsInSpace value := by
  cases given with
  | none => exact ⟨fun _ => nofun, fun _ => rfl⟩
  | some given =>
    by_cases hempty : cleanUtm given = []
    · have hnone : sanitizeUtm (some given) = none := if_pos hempty
      rw [hnone]
      exact ⟨fun _ => nofun, fun _ => rfl⟩
    · have hsome : sanitizeUtm (some given) = some (String.ofList (cleanUtm given)) := if_neg hempty
      rw [hsome]
      simp only [Option.mem_some_iff, forall_eq']
      rw [← rdropWhile_eq_self_iff, ← cleanUtm_cleanUtm]
      generalize cleanUtm given = value at hempty
      have hagain : sanitizeUtm (some (String.ofList value)) = if cleanUtm (String.ofList value) = [] then none
        else some (String.ofList (cleanUtm (String.ofList value))) := rfl
      rw [hagain]
      split
      · rename_i hnil
        rw [hnil]
        exact ⟨nofun, fun h => absurd h.symm hempty⟩
      · rw [Option.some.injEq, String.ofList_inj]

/-- The campaign values of an event. -/
def ClickEvent.utmValues (event : ClickEvent Time) : List String :=
  [event.fields.utmSource, event.fields.utmMedium, event.fields.utmCampaign].filterMap id

theorem stripPasswordHash_eq (url : UrlCacheData) :
    stripPasswordHash url = { url with passwordHash := none } := by
  unfold stripPasswordHash
  split
  · rfl
  · rename_i hnone
    rw [← Option.not_isSome_iff_eq_none.1 hnone]

theorem ClickEvent.build_fields_iff (event : ClickEvent Time) :
    ClickEvent.build event.fields = event ↔ ∀ value ∈ event.utmValues, ¬EndsInSpace value := by
  obtain ⟨fields, given, rfl⟩ := event
  have hvalues : (⟨given.validated, given, rfl⟩ : ClickEvent Time).utmValues =
      [sanitizeUtm given.utmSource, sanitizeUtm given.utmMedium, sanitizeUtm given.utmCampaign].filterMap id := rfl
  rw [hvalues, ClickEvent.build, ClickEvent.mk.injEq]
  simp only [ClickFields.validated, ClickFields.mk.injEq, stripPasswordHash_eq, true_and, and_true,
    sanitizeUtm_twice_iff, List.mem_filterMap, List.mem_cons, List.not_mem_nil, or_false, id_eq]
  constructor
  · rintro ⟨hsource, hmedium, hcampaign⟩ value ⟨field, rfl | rfl | rfl, hvalue⟩
    · exact hsource value hvalue
    · exact hmedium value hvalue
    · exact hcampaign value hvalue
  · exact fun h => ⟨fun value hvalue => h value ⟨_, .inl rfl, hvalue⟩,
      fun value hvalue => h value ⟨_, .inr (.inl rfl), hvalue⟩,
      fun value hvalue => h value ⟨_, .inr (.inr rfl), hvalue⟩⟩

/-! ## The stream -/

/-- What is decoded are the fields of the event, after another run of the validators. -/
theorem fromStreamFields_toStreamFields {event : ClickEvent Time} (hempty : lib.parse "" = none)
    (hjson : lib.parse (lib.print (event.dump lib)) = some (event.dump lib))
    (htime : lib.readTime (lib.showTime event.fields.enqueuedAt) = some event.fields.enqueuedAt) :
    fromStreamFields lib (toStreamFields lib event) = some (ClickEvent.build event.fields) := by
  have hdata : (toStreamFields lib event).get? "__data__" = some (lib.print (event.dump lib)) := rfl
  have hprint : lib.print (event.dump lib) ≠ "" := by
    intro hprint
    rw [hprint, hempty] at hjson
    cases hjson
  unfold fromStreamFields
  rw [hdata]
  dsimp only
  rw [if_neg hprint, hjson, Option.bind_some, ClickEvent.dump, loadFields_dump htime, Option.map_some]

/-- Another password of the link. -/
def ClickFields.withPassword (given : ClickFields Time) (hash : Option String) : ClickFields Time :=
  { given with url := { given.url with passwordHash := hash } }

theorem validated_withPassword (given : ClickFields Time) (hash : Option String) :
    (given.withPassword hash).validated = given.validated := by
  simp only [ClickFields.validated, ClickFields.withPassword, stripPasswordHash_eq]

variable (lib) in
/-- The stream holds the same for every password that the link may have. -/
def HidesPassword (event : ClickEvent Time) : Prop :=
  event.fields.url.passwordHash = none ∧
    ∀ (given : ClickFields Time) (hash : Option String), ClickEvent.build given = event →
      toStreamFields lib (ClickEvent.build (given.withPassword hash)) = toStreamFields lib event

theorem hidesPassword (event : ClickEvent Time) : HidesPassword lib event := by
  refine ⟨?_, ?_⟩
  · obtain ⟨fields, given, rfl⟩ := event
    show (stripPasswordHash given.url).passwordHash = none
    rw [stripPasswordHash_eq]
  · rintro given hash rfl
    have hbuild : ClickEvent.build (given.withPassword hash) = ClickEvent.build given := by
      rw [ClickEvent.build, ClickEvent.build, ClickEvent.mk.injEq]
      exact validated_withPassword given hash
    rw [hbuild]

/-- An event comes back as it was sent, and without the password, unless a campaign value ends in a space. -/
theorem click_event_decoded_iff {event : ClickEvent Time} (hempty : lib.parse "" = none)
    (hjson : lib.parse (lib.print (event.dump lib)) = some (event.dump lib))
    (htime : lib.readTime (lib.showTime event.fields.enqueuedAt) = some event.fields.enqueuedAt) :
    fromStreamFields lib (toStreamFields lib event) = some event ∧ HidesPassword lib event ↔
      ∀ value ∈ event.utmValues, ¬EndsInSpace value := by
  rw [fromStreamFields_toStreamFields hempty hjson htime, Option.some.injEq, ClickEvent.build_fields_iff]
  exact and_iff_left (hidesPassword event)

/-! ## A text on the wire -/

/-- One text, and the value that it stands for. -/
def oneText (text : String) (value : Json) : WireLib Unit where
  print := fun _ => text
  parse := fun raw => if raw = text then some value else none
  showTime := fun _ => "2026-01-01T00:00:00Z"
  readTime := fun value => if value = "2026-01-01T00:00:00Z" then some () else none
  laxInt := fun _ => none
  laxBool := fun _ => none
  laxTime := fun _ => none
  now := ()

theorem oneText_empty {text : String} {value : Json} (h : "" ≠ text) : (oneText text value).parse "" = none :=
  if_neg h

theorem oneText_parse (text : String) (value json : Json) :
    (oneText text value).parse ((oneText text value).print json) = some value := if_pos rfl

/-- A click on a link without any settings. -/
def clickFrom (utmSource : String) : ClickEvent Unit :=
  ClickEvent.build
    { shortCode := "abc", schemaKey := "v2", isEmoji := false
      url :=
        { id := "65f000000000000000000001", linkAlias := "abc", longUrl := "https://a.io", blockBots := false
          passwordHash := none, expirationTime := none, maxClicks := none, urlStatus := "ACTIVE"
          schemaVersion := "v2", ownerId := none }
      clientIp := "203.0.113.7", userAgent := "curl/8.5", referrer := none, cfCity := none
      utmSource := some utmSource, redirectMs := 3, enqueuedAt := () }

/-- What `model_dump_json` writes behind the first brace, for a `utm_source`. -/
def clickBody (utmSource : String) : String :=
  "\"short_code\":\"abc\",\"schema_key\":\"v2\",\"is_emoji\":false,\"url\":\x7b\"id\":\"65f000000000000000000001\"," ++
    "\"alias\":\"abc\",\"long_url\":\"https://a.io\",\"block_bots\":false,\"password_hash\":null," ++
    "\"expiration_time\":null,\"max_clicks\":null,\"url_status\":\"ACTIVE\",\"schema_version\":\"v2\"," ++
    "\"owner_id\":null,\"total_clicks\":0,\"domain\":\"\",\"geo_rules\":null,\"expired_redirect_url\":null," ++
    "\"ab_variants\":null,\"meta_title\":null,\"meta_description\":null,\"meta_image\":null,\"meta_color\":null," ++
    "\"meta_image_width\":null,\"meta_image_height\":null,\"start_time\":null,\"pre_start_url\":null\x7d," ++
    "\"client_ip\":\"203.0.113.7\",\"user_agent\":\"curl/8.5\",\"referrer\":null,\"cf_city\":null," ++
    "\"resolved_country\":null,\"geo_matched\":false,\"variant_index\":null,\"utm_source\":\"" ++ utmSource ++
    "\",\"utm_medium\":null,\"utm_campaign\":null,\"redirect_ms\":3,\"enqueued_at\":\"2026-01-01T00:00:00Z\"\x7d"

/-- The library on one click, of which `sent` is the source that the event holds. -/
def clickLib (given sent : String) : WireLib Unit :=
  oneText ("\x7b" ++ clickBody sent) ((clickFrom given).dump (oneText "" .null))

theorem clickLib_empty (given sent : String) : (clickLib given sent).parse "" = none := by
  have hne : "" ≠ "\x7b" ++ clickBody sent := by
    intro h
    have hbrace : "\x7b" = "" := (String.append_eq_empty_iff.1 h.symm).1
    exact absurd hbrace (by decide)
  exact oneText_empty hne

theorem clickLib_parse (given sent : String) :
    (clickLib given sent).parse ((clickLib given sent).print ((clickFrom given).dump (clickLib given sent))) =
      some ((clickFrom given).dump (clickLib given sent)) := by
  have hdump : (clickFrom given).dump (clickLib given sent) = (clickFrom given).dump (oneText "" .null) := rfl
  exact (oneText_parse _ _ _).trans (congrArg some hdump.symm)

theorem clickLib_time (given sent : String) (time : Unit) :
    (clickLib given sent).readTime ((clickLib given sent).showTime time) = some time := rfl

theorem click_event_decoded_iff_mail :
    fromStreamFields (clickLib "mail" "mail") (toStreamFields (clickLib "mail" "mail") (clickFrom "mail")) =
        some (clickFrom "mail") ∧ HidesPassword (clickLib "mail" "mail") (clickFrom "mail") :=
  (click_event_decoded_iff (clickLib_empty _ _) (clickLib_parse _ _) (clickLib_time _ _ _)).2 (by decide)

/-- A source of 99 letters, a blank and a letter more: the cut is behind the blank. -/
def cutSource : String := String.ofList (List.replicate 99 'a' ++ [' ', 'b'])

/-- What is left of it in the event. -/
def cutSent : String := String.ofList (List.replicate 99 'a' ++ [' '])

/-- The click comes back without the blank. -/
theorem cut_source_comes_back_shorter :
    fromStreamFields (clickLib cutSource cutSent)
        (toStreamFields (clickLib cutSource cutSent) (clickFrom cutSource)) ≠
      some (clickFrom cutSource) := by
  rw [fromStreamFields_toStreamFields (clickLib_empty _ _) (clickLib_parse _ _) (clickLib_time _ _ _), ne_eq,
    Option.some.injEq, ClickEvent.build_fields_iff]
  decide +kernel

end Spoo.ClickStream
