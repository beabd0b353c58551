import Spoo.Edge.Worker
import Spoo.Lib.Copies
import Spoo.Proofs.OwnerRaces
import Spoo.Services.MetaTags.Validator

/-!
# Validated images and their copies

The validator of preview images clears the image of a link and then refreshes the key that its
event names, in the redirect cache and on the edge. An update refreshes the keys it knows the link
by, from the document it has read. A copy keeps another image than the link where the refreshed key
is not the one the link has, or where what is put was read before the last change.
-/

namespace Spoo

open Interleave Mongo Mongo.Collection UrlRepository

/-! ## Previews -/

/-- Where preview data of a link is held. -/
inductive PreviewPlace where
  | cache
  | edge

/-- Preview data as it is held: what a cached link shows, or a rendered page. -/
inductive HeldPreview where
  | cached (image : Option String)
  | page (html : String)

/-- The image of the link, `meta_tags.image`. -/
def UrlRow.metaImage (row : UrlRow) : Option String := row.metaTags.bind (·.image)

/-- The image of the document. -/
def UrlV2Doc.metaImage (doc : UrlV2Doc) : Option String := doc.metaTags.bind (·.image)

/-- The alias and the domain of the link. -/
def UrlRow.linkKey (row : UrlRow) : String × String := (row.linkAlias, row.domain)

/-- The alias and the domain of the document. -/
def UrlV2Doc.linkKey (doc : UrlV2Doc) : String × String := (doc.linkAlias, doc.domain)

/-- The preview shows the image. -/
def HeldPreview.Shows (render : UrlCacheData → String) (image : Option String) : HeldPreview → Prop
  | .cached held => held = image
  | .page html => ∃ data : UrlCacheData, data.metaImage = image ∧ html = render data

/-- The page that a read at the given time finds. -/
def EdgeKv.page (kv : EdgeKv) (key : String) (later : Int) : Option String :=
  (kv.get key later).bind EdgeWorker.ogHtml

section

variable (key : String × String) (later : Int)

/-- The preview data held under the alias and domain `key`. -/
def Stores.preview (s : Stores) : PreviewPlace → Option HeldPreview
  | .cache => (s.cache.get key.1 key.2).map fun data => .cached data.metaImage
  | .edge => (s.kv.page (cacheKey key.2 key.1) later).map .page

/-- If the link is under the key, the preview shows its image. -/
def ShowsStored (render : UrlCacheData → String) (urlId : ObjectId) (s : Stores)
    (_ : PreviewPlace) (preview : HeldPreview) : Prop :=
  ∀ row ∈ s.urls.lookup urlId, row.linkKey = key → preview.Shows render row.metaImage

/-- All preview data held under the key of the link shows its image. -/
def PreviewsMatch (render : UrlCacheData → String) (urlId : ObjectId) (s : Stores) : Prop :=
  ∀ place preview, s.preview key later place = some preview →
    ShowsStored key render urlId s place preview

end

/-! ## Who moves -/

/-- A validation of an image, or an update by the owner. -/
inductive ImageParty where
  | validate (fetchPublicImage : String → ImageFetch) (payload : Option MetaImageValidateEvent)
      (now : Int)
  | update (env : UpdateEnv) (request : UpdateUrlRequest) (ownerId : ObjectId)
      (clientIp : Option String) (now : Int)

namespace ImageParty

def Vars : ImageParty → Type
  | .validate .. => ValidatorVars
  | .update .. => OwnerVars

variable (edge : EdgeConfig) (urlId : ObjectId) (key : String × String)

/-- The calls of the operation, from its initial variables. -/
def process : (party : ImageParty) → Process party.Vars Stores
  | .validate fetchPublicImage payload now =>
    (⟨{}, MetaImageValidator.consumeCalls edge fetchPublicImage now payload⟩ :
      Process ValidatorVars Stores)
  | .update env request ownerId clientIp now =>
    (⟨{}, UrlService.updateCalls env edge urlId request ownerId clientIp now⟩ :
      Process OwnerVars Stores)

/-- What is left to do are the last calls of the operation. -/
def Underway (party : ImageParty) (p : Process party.Vars Stores) : Prop :=
  p.todo <:+ (party.process edge urlId).todo

/-! ### What is refreshed -/

/-- The event makes the validator refresh the preview under the key. -/
def EventRefreshes (event : MetaImageValidateEvent) : PreviewPlace → Prop
  | .cache => event.key = key
  | .edge => event.key = key ∧ edge.enabled = true ∧ key.2 = edge.systemDefaultDomain

/-- The update has the edge entry of the link written again, under the key the link will have. -/
def UpdateResyncs (existing : UrlV2Doc) (ops : UrlOps) : Prop :=
  edge.enabled = true ∧ (existing.metaTags.isSome || (ops.merge existing).metaTags.isSome) = true ∧
    UrlService.ogRelevant ops = true

/-- The update refreshes the preview under the key. -/
def UpdateRefreshes (existing : UrlV2Doc) (ops : UrlOps) : PreviewPlace → Prop
  | .cache => existing.linkKey = key ∨ (ops.merge existing).linkKey = key
  | .edge => UpdateResyncs edge existing ops ∧ (ops.merge existing).linkKey = key ∧
      key.2 = edge.systemDefaultDomain

/-- The validator has still to refresh the preview. -/
def ValidatorOwes (payload : Option MetaImageValidateEvent) (p : Process ValidatorVars Stores) :
    PreviewPlace → Prop
  | .cache => p.todo.length = 3 ∧ p.vars.changed = true ∧
      ∃ event ∈ payload, EventRefreshes edge key event .cache
  | .edge => (p.todo.length = 3 ∨ p.todo.length = 2) ∧ p.vars.changed = true ∧
        (∃ event ∈ payload, EventRefreshes edge key event .edge) ∨
      p.todo.length = 1 ∧ key.2 = edge.systemDefaultDomain ∧ ∃ doc ∈ p.vars.doc, doc.linkKey = key

/-- The update has still to refresh the preview. -/
def UpdateOwes (p : Process OwnerVars Stores) : PreviewPlace → Prop
  | .cache => p.todo.length = 2 ∧
      ∃ decision ∈ p.vars.pending, UpdateRefreshes edge key decision.1 decision.2 .cache
  | .edge => (p.todo.length = 2 ∨ p.todo.length = 1) ∧
      ∃ decision ∈ p.vars.pending, UpdateRefreshes edge key decision.1 decision.2 .edge

/-- The operation has still to refresh the preview. -/
def Owes : (party : ImageParty) → Process party.Vars Stores → PreviewPlace → Prop
  | .validate _ payload _, p => ValidatorOwes edge key payload p
  | .update .., p => UpdateOwes edge key p

/-! ### Care -/

variable (later : Int)

/-- A preview is held, and no other operation has still to refresh it. -/
def Exposed (others : PreviewPlace → Prop) (s : Stores) (place : PreviewPlace) : Prop :=
  (s.preview key later place).isSome = true ∧ ¬others place

/-- The page of a document with meta-tags that is put under the edge key shows the image of the
link, or another operation has still to refresh it. -/
def PutCareful (others : PreviewPlace → Prop) (s : Stores) (doc : UrlV2Doc) : Prop :=
  cacheKey doc.domain doc.linkAlias = cacheKey key.2 key.1 → doc.metaTags.isSome = true →
    doc.status = .active → ∀ row ∈ s.urls.lookup urlId, row.linkKey = key →
      doc.metaImage = row.metaImage ∨ others .edge

/-- A validator that is about to clear the image of the link under the key has an event with this
key, where a preview would stay behind; and what it is about to put is up to date. -/
def ValidatorCareful (payload : Option MetaImageValidateEvent) (others : PreviewPlace → Prop)
    (s : Stores) (p : Process ValidatorVars Stores) : Prop :=
  (p.todo.length = 4 → p.vars.fetch = some .hardError → ∀ event ∈ payload,
    event.urlId = urlId → ∀ row ∈ s.urls.lookup urlId, row.linkKey = key →
      row.metaImage = some event.imageUrl → ∀ place, Exposed key later others s place →
        EventRefreshes edge key event place) ∧
  (p.todo.length = 1 → ∀ doc ∈ p.vars.doc, PutCareful urlId key others s doc)

/-- An update that is about to change the image of the link under the key, or to bring the link
there, refreshes the key, where a preview would stay behind; and what it is about to put is up to
date. -/
def UpdateCareful (others : PreviewPlace → Prop) (s : Stores) (p : Process OwnerVars Stores) :
    Prop :=
  (p.todo.length = 3 → ∀ decision ∈ p.vars.pending, ∀ row ∈ s.urls.lookup urlId,
    let row' := decision.2.toUpdate.apply row
    row'.linkKey = key → row.linkKey ≠ key ∨ row'.metaImage ≠ row.metaImage →
      ∀ place, Exposed key later others s place →
        UpdateRefreshes edge key decision.1 decision.2 place) ∧
  (p.todo.length = 1 → ∀ decision ∈ p.vars.pending, UpdateResyncs edge decision.1 decision.2 →
    PutCareful urlId key others s (decision.2.merge decision.1))

/-- The operation is careful about its next move. -/
def Careful (others : PreviewPlace → Prop) (s : Stores) :
    (party : ImageParty) → Process party.Vars Stores → Prop
  | .validate _ payload _, p => ValidatorCareful edge urlId key later payload others s p
  | .update .., p => UpdateCareful edge urlId key later others s p

end ImageParty

/-! ## Pages on the edge -/

namespace EdgeKv

variable {kv : EdgeKv} {key key' html : String} {now later : Int}

theorem page_delete (h : (kv.delete key').page key later = some html) :
    kv.page key later = some html ∧ key ≠ key' := by
  by_cases hkey : key = key'
  · simp [page, get, delete, hkey] at h
  · exact ⟨by simpa [page, get, delete, hkey] using h, hkey⟩

theorem page_put {entry : EdgeCacheEntry} {ttl : Int}
    (h : (kv.put key' entry ttl now).page key later = some html) :
    key = key' ∧ EdgeWorker.ogHtml entry = some html ∨
      kv.page key later = some html ∧ key ≠ key' := by
  by_cases hkey : key = key'
  · subst hkey
    rw [page, get_put_self] at h
    split at h
    · exact .inl ⟨rfl, h⟩
    · cases h
  · refine .inr ⟨?_, hkey⟩
    simpa [page, get, put, hkey] using h

end EdgeKv

section

variable {kv : EdgeKv} {key html : String} {now later : Int} {render : UrlCacheData → String}
  {systemDomain : String}

theorem page_ogRemove {domain linkAlias : String}
    (h : (ogRemove kv systemDomain domain linkAlias).page key later = some html) :
    kv.page key later = some html := by
  unfold ogRemove at h
  split at h
  · exact h
  · exact (EdgeKv.page_delete h).1

theorem page_purgeEdgeKey {edge : EdgeConfig} {domain linkAlias : String}
    (h : (UrlService.purgeEdgeKey edge kv domain linkAlias).page key later = some html) :
    kv.page key later = some html := by
  unfold UrlService.purgeEdgeKey at h
  split at h
  · exact h
  · exact (EdgeKv.page_delete h).1

/-- A write-through leaves a page it has put, or one under another key than the link's. -/
theorem page_ogSync {ttl : Int} {doc : UrlV2Doc}
    (h : (ogSync render kv systemDomain ttl (.fromV2Doc doc) now).page key later = some html) :
    (key = cacheKey doc.domain doc.linkAlias ∧ doc.metaTags.isSome = true ∧
        doc.status = .active ∧ html = render (.fromV2Doc doc)) ∨
      kv.page key later = some html ∧
        ¬(doc.domain = systemDomain ∧ key = cacheKey doc.domain doc.linkAlias) := by
  unfold ogSync at h
  split at h
  · rename_i hdomain
    exact .inr ⟨h, fun hsystem => hdomain hsystem.1⟩
  · split at h
    · rename_i hput
      rcases EdgeKv.page_put h with ⟨hkey, hhtml⟩ | ⟨hold, hkey⟩
      · refine .inl ⟨hkey, ?_, hput.2, (Option.some.inj hhtml).symm⟩
        rw [← hput.1]
        exact Option.isSome_map.symm
      · exact .inr ⟨hold, fun hsame => hkey hsame.2⟩
    · obtain ⟨hold, hkey⟩ := EdgeKv.page_delete h
      exact .inr ⟨hold, fun hsame => hkey hsame.2⟩

/-- An update leaves the page of the document it has merged, or one that it does not refresh. -/
theorem page_updateEdge {edge : EdgeConfig} {existing : UrlV2Doc} {ops : UrlOps}
    (h : (UrlService.updateEdge edge existing ops now kv).page key later = some html) :
    (ImageParty.UpdateResyncs edge existing ops ∧
        key = cacheKey (ops.merge existing).domain (ops.merge existing).linkAlias ∧
        (ops.merge existing).metaTags.isSome = true ∧ (ops.merge existing).status = .active ∧
        html = edge.render (.fromV2Doc (ops.merge existing))) ∨
      kv.page key later = some html ∧ ¬(ImageParty.UpdateResyncs edge existing ops ∧
        (ops.merge existing).domain = edge.systemDefaultDomain ∧
        key = cacheKey (ops.merge existing).domain (ops.merge existing).linkAlias) := by
  unfold UrlService.updateEdge at h
  dsimp only at h
  split at h
  · rename_i hog
    rw [Bool.and_eq_true] at hog
    split at h
    · rename_i hrelevant
      refine (page_ogSync h).imp (fun hput => ⟨⟨hog.1, hog.2, hrelevant⟩, hput⟩) fun hkept => ?_
      obtain ⟨hold, hother⟩ := hkept
      refine ⟨?_, fun hsame => hother hsame.2⟩
      split at hold
      · exact page_ogRemove hold
      · exact hold
    · rename_i hrelevant
      exact .inr ⟨h, fun hsame => hrelevant hsame.1.2.2⟩
  · rename_i hog
    have hoff : ¬ImageParty.UpdateResyncs edge existing ops := by
      rintro ⟨henabled, htags, -⟩
      exact hog (by rw [henabled, htags]; rfl)
    refine .inr ⟨?_, fun hsame => hoff hsame.1⟩
    split at h
    · exact page_purgeEdgeKey h
    · exact h

end

/-! ## What a move leaves -/

section

variable {key : String × String} {later : Int} {s s' : Stores}

theorem preview_cache_eq_some {preview : HeldPreview} :
    s.preview key later .cache = some preview ↔
      ∃ data, s.cache.get key.1 key.2 = some data ∧ .cached data.metaImage = preview := by
  simp [Stores.preview]

theorem preview_edge_eq_some {preview : HeldPreview} :
    s.preview key later .edge = some preview ↔
      ∃ html, s.kv.page (cacheKey key.2 key.1) later = some html ∧ .page html = preview := by
  simp [Stores.preview]

variable (key later) in
/-- A move leaves no preview of the link wrong that is not owed. -/
abbrev RenewsPreviews (render : UrlCacheData → String) (urlId : ObjectId)
    (others owed owed' : PreviewPlace → Prop) (s s' : Stores) : Prop :=
  Renews (Stores.preview key later) (ShowsStored key render urlId) others owed owed' s s'

variable {render : UrlCacheData → String} {urlId : ObjectId}
  {others owed owed' : PreviewPlace → Prop}

theorem renewsPreviews_of_eq (h : s' = s) (howed : ∀ place, owed place → owed' place) :
    RenewsPreviews key later render urlId others owed owed' s s' := by
  subst h
  exact .of_kept (fun _ _ h => h) (fun _ _ _ h => .inl h)
    fun place _ _ h => .inr (.inl (howed place h))

/-- A write to the v2 links, which keeps the key and the image of the link, or leaves the previews
to be refreshed. -/
theorem renewsPreviews_of_urls {urls : UrlStore} (howed : ∀ place, ¬owed place)
    (h : (∀ row' ∈ urls.lookup urlId, row'.linkKey = key →
        ∃ row ∈ s.urls.lookup urlId, row.linkKey = key ∧ row.metaImage = row'.metaImage) ∨
      ∀ place, ImageParty.Exposed key later others s place → owed' place) :
    RenewsPreviews key later render urlId others owed owed' s { s with urls } := by
  refine .of_kept (fun _ _ h => h) (fun place preview hheld hright => ?_)
    fun place _ _ howes => absurd howes (howed place)
  rcases h with hkept | hrefreshed
  · refine .inl fun row' hrow' hkey => ?_
    obtain ⟨row, hrow, hkey', himage⟩ := hkept row' hrow' hkey
    rw [← himage]
    exact hright row hrow hkey'
  · by_cases hothers : others place
    · exact .inr (.inr hothers)
    · refine .inr (.inl (hrefreshed place ⟨?_, hothers⟩))
      exact Option.isSome_iff_exists.2 ⟨preview, hheld⟩

/-- A call that drops cached links, and with them what was owed there. -/
theorem renewsPreviews_of_drop (hurls : s'.urls = s.urls) (hkv : s'.kv = s.kv)
    (hcache : ∀ data, s'.cache.get key.1 key.2 = some data →
      s.cache.get key.1 key.2 = some data ∧ ¬owed .cache)
    (howed : owed .edge → owed' .edge) :
    RenewsPreviews key later render urlId others owed owed' s s' := by
  have hdrop {place : PreviewPlace} {preview : HeldPreview}
      (h : s'.preview key later place = some preview) :
      s.preview key later place = some preview ∧ (owed place → place = .edge) := by
    cases place with
    | cache =>
      obtain ⟨data, hdata, rfl⟩ := preview_cache_eq_some.1 h
      obtain ⟨hold, hfree⟩ := hcache data hdata
      exact ⟨preview_cache_eq_some.2 ⟨data, hold, rfl⟩, fun howes => absurd howes hfree⟩
    | edge => exact ⟨by simpa only [Stores.preview, hkv] using h, fun _ => rfl⟩
  refine .of_kept (fun _ _ h => (hdrop h).1) (fun _ _ _ hright => .inl ?_)
    fun place _ hheld howes => ?_
  · unfold ShowsStored at hright ⊢
    rw [hurls]
    exact hright
  · obtain rfl := (hdrop hheld).2 howes
    exact .inr (.inl (howed howes))

/-- A call that puts the page of a document, or leaves a page that it does not owe. -/
theorem renewsPreviews_of_put {doc : UrlV2Doc} (puts : Prop) (hurls : s'.urls = s.urls)
    (hcache : s'.cache = s.cache) (howed : ¬owed .cache)
    (hpage : ∀ html, s'.kv.page (cacheKey key.2 key.1) later = some html →
      (puts ∧ cacheKey key.2 key.1 = cacheKey doc.domain doc.linkAlias ∧
        doc.metaTags.isSome = true ∧ doc.status = .active ∧ html = render (.fromV2Doc doc)) ∨
      s.kv.page (cacheKey key.2 key.1) later = some html ∧ ¬owed .edge)
    (hcareful : puts → ImageParty.PutCareful urlId key others s doc) :
    RenewsPreviews key later render urlId others owed owed' s s' := by
  have hsame {place : PreviewPlace} {preview : HeldPreview}
      (hold : s.preview key later place = some preview) (hfree : ¬owed place) :
      ShowsStored key render urlId s' place preview ∨ owed' place ∨ others place ∨
        s.preview key later place = some preview ∧
          ¬ShowsStored key render urlId s place preview ∧ ¬owed place := by
    by_cases hright : ShowsStored key render urlId s place preview
    · refine .inl ?_
      unfold ShowsStored at hright ⊢
      rw [hurls]
      exact hright
    · exact .inr (.inr (.inr ⟨hold, hright, hfree⟩))
  intro place preview hheld
  cases place with
  | cache =>
    refine hsame ?_ howed
    simpa only [Stores.preview, hcache] using hheld
  | edge =>
    obtain ⟨html, hhtml, rfl⟩ := preview_edge_eq_some.1 hheld
    rcases hpage html hhtml with ⟨hputs, hkey, htags, hactive, hrender⟩ | ⟨hold, hfree⟩
    · by_cases hothers : others .edge
      · exact .inr (.inr (.inl hothers))
      · refine .inl fun row hrow hcurrent => ⟨.fromV2Doc doc, ?_, hrender⟩
        rw [hurls] at hrow
        exact (hcareful hputs hkey.symm htags hactive row hrow hcurrent).resolve_right hothers
    · exact hsame (preview_edge_eq_some.2 ⟨html, hold, rfl⟩) hfree

end

namespace ImageParty

variable {edge : EdgeConfig} {urlId : ObjectId} {key : String × String} {later : Int}
  {others : PreviewPlace → Prop} {s : Stores}

/-! ### A validation -/

section

variable {v : ValidatorVars} {event : MetaImageValidateEvent}
  {payload : Option MetaImageValidateEvent} {fetchPublicImage : String → ImageFetch} {now : Int}

theorem isSome_findOne {store : UrlStore} {q : UrlRow → Bool} {row : UrlRow}
    (hrow : store.lookup urlId = some row) (hmatch : q row = true) :
    (store.findOne q).isSome = true :=
  List.find?_isSome.2 ⟨row, (lookup_eq_some_iff.1 hrow).1, hmatch⟩

/-- The write of the validator, before the calls that refresh the key. -/
theorem writeCall_renews (event : MetaImageValidateEvent) {owed owed' : PreviewPlace → Prop}
    (howed : ∀ place, ¬owed place)
    (hcareful : v.fetch = some .hardError → event.urlId = urlId →
      ∀ row ∈ s.urls.lookup urlId, row.linkKey = key → row.metaImage = some event.imageUrl →
        ∀ place, Exposed key later others s place → EventRefreshes edge key event place)
    (howed' : ∀ place, (MetaImageValidator.writeCall event v s).1.changed = true →
      EventRefreshes edge key event place → owed' place) :
    RenewsPreviews key later edge.render urlId others owed owed' s
      (MetaImageValidator.writeCall event v s).2 := by
  cases hfetch : v.fetch with
  | none =>
    exact renewsPreviews_of_eq (by simp [MetaImageValidator.writeCall, hfetch])
      fun place h => absurd h (howed place)
  | some fetch =>
    cases fetch with
    | denied =>
      exact renewsPreviews_of_eq (by simp [MetaImageValidator.writeCall, hfetch])
        fun place h => absurd h (howed place)
    | transientError =>
      exact renewsPreviews_of_eq (by simp [MetaImageValidator.writeCall, hfetch])
        fun place h => absurd h (howed place)
    | hardError =>
      simp only [MetaImageValidator.writeCall, hfetch] at howed' ⊢
      refine renewsPreviews_of_urls howed ?_
      by_cases hreached : ∃ row ∈ s.urls.lookup urlId, row.linkKey = key ∧
          (metaImageFilter event.urlId event.imageUrl).Matches row = true
      · obtain ⟨row, hrow, hkey, hmatch⟩ := hreached
        refine .inr fun place hexposed => howed' place (isSome_findOne hrow hmatch) ?_
        simp only [matches_metaImageFilter, Bool.and_eq_true, decide_eq_true_eq] at hmatch
        have hid : event.urlId = urlId := hmatch.1.symm.trans (lookup_eq_some_iff.1 hrow).2
        exact hcareful hfetch hid row hrow hkey hmatch.2 place hexposed
      · refine .inl fun row' hrow' hkey => ?_
        rw [clearMetaImage, lookup_updateMany] at hrow'
        obtain ⟨row, hrow, rfl⟩ := Option.map_eq_some_iff.1 hrow'
        unfold applyWhere at hkey ⊢
        split at hkey
        · rename_i hmatch
          exact absurd ⟨row, hrow, hkey, hmatch⟩ hreached
        · rename_i hmatch
          rw [if_neg hmatch]
          exact ⟨row, hrow, hkey, rfl⟩
    | fetched imageMeta =>
      simp only [MetaImageValidator.writeCall, hfetch]
      refine renewsPreviews_of_urls howed (.inl fun row' hrow' hkey => ?_)
      rw [recordMetaImageValidation, lookup_updateMany] at hrow'
      obtain ⟨row, hrow, rfl⟩ := Option.map_eq_some_iff.1 hrow'
      have hsame : (applyWhere (metaImageFilter event.urlId event.imageUrl).Matches
            (setImageMeta imageMeta).toUpdate row).linkKey = row.linkKey ∧
          (applyWhere (metaImageFilter event.urlId event.imageUrl).Matches
            (setImageMeta imageMeta).toUpdate row).metaImage = row.metaImage := by
        unfold applyWhere
        split
        · refine ⟨rfl, ?_⟩
          cases htags : row.metaTags <;> simp [UrlRow.metaImage, setImageMeta, htags]
        · exact ⟨rfl, rfl⟩
      exact ⟨row, hrow, hsame.1.symm.trans hkey, hsame.2.symm⟩

theorem invalidateCall_renews :
    RenewsPreviews key later edge.render urlId others
      (ValidatorOwes edge key (some event) ⟨v, [MetaImageValidator.invalidateCall event,
        MetaImageValidator.findCall edge event, MetaImageValidator.syncCall edge now]⟩)
      (ValidatorOwes edge key (some event) ⟨(MetaImageValidator.invalidateCall event v s).1,
        [MetaImageValidator.findCall edge event, MetaImageValidator.syncCall edge now]⟩) s
      (MetaImageValidator.invalidateCall event v s).2 := by
  unfold MetaImageValidator.invalidateCall
  cases hchanged : v.changed with
  | false =>
    refine renewsPreviews_of_eq (by simp) fun place howes => ?_
    cases place <;> simp [ValidatorOwes, hchanged] at howes
  | true =>
    rw [if_pos rfl]
    refine renewsPreviews_of_drop rfl rfl (fun data hdata => ?_) fun howes => ?_
    · obtain ⟨hother, hold⟩ := UrlCache.entries_invalidate_eq_some.1 hdata
      refine ⟨hold, ?_⟩
      rintro ⟨-, -, _, ⟨⟩, hkey⟩
      exact hother (by rw [← show event.key = key from hkey]; rfl)
    · simp only [ValidatorOwes, List.length_cons, List.length_nil] at howes
      obtain ⟨-, -, hrefreshes⟩ := howes.resolve_right (by simp)
      exact .inl ⟨.inr rfl, hchanged, hrefreshes⟩

/-- The document that is found has the key of the event; if there is none, the link is not there. -/
theorem findCall_renews {owed owed' : PreviewPlace → Prop}
    (howedCache : ¬owed .cache)
    (howed : owed .edge → v.changed = true ∧ edge.enabled = true ∧ event.key = key)
    (howed' : ∀ doc ∈ (MetaImageValidator.findCall edge event v s).1.doc, doc.linkKey = key →
      owed .edge → owed' .edge) :
    RenewsPreviews key later edge.render urlId others owed owed' s
      (MetaImageValidator.findCall edge event v s).2 := by
  have hstores : (MetaImageValidator.findCall edge event v s).2 = s := by
    unfold MetaImageValidator.findCall
    split <;> rfl
  rw [hstores]
  refine .of_kept (fun _ _ h => h) (fun _ _ _ h => .inl h) fun place preview _ howes => ?_
  cases place with
  | cache => exact absurd howes howedCache
  | edge =>
    obtain ⟨hchanged, henabled, hkey⟩ := howed howes
    have hdoc : (MetaImageValidator.findCall edge event v s).1.doc =
        UrlRepository.findByAlias s.urls event.linkAlias event.domain := by
      simp [MetaImageValidator.findCall, hchanged, henabled]
    rw [hdoc] at howed'
    cases hfound : UrlRepository.findByAlias s.urls event.linkAlias event.domain with
    | none =>
      refine .inl fun row hrow hcurrent => ?_
      have hmiss := Option.map_eq_none_iff.1 hfound
      have hnot := List.find?_eq_none.1 hmiss row (lookup_eq_some_iff.1 hrow).1
      rw [matches_aliasClause, decide_eq_true_eq] at hnot
      exact absurd (hcurrent.trans hkey.symm) hnot
    | some doc =>
      refine .inr (.inl (howed' doc hfound ?_ howes))
      obtain ⟨row, hrow, rfl⟩ := Option.map_eq_some_iff.1 hfound
      have hmatch := List.find?_some hrow
      rw [matches_aliasClause, decide_eq_true_eq] at hmatch
      exact hmatch.trans hkey

theorem syncCall_renews {owed owed' : PreviewPlace → Prop} (howedCache : ¬owed .cache)
    (howed : owed .edge → key.2 = edge.systemDefaultDomain ∧ ∃ doc ∈ v.doc, doc.linkKey = key)
    (hcareful : ∀ doc ∈ v.doc, PutCareful urlId key others s doc) :
    RenewsPreviews key later edge.render urlId others owed owed' s
      (MetaImageValidator.syncCall edge now v s).2 := by
  cases hdoc : v.doc with
  | none =>
    rw [hdoc] at howed
    refine renewsPreviews_of_eq (by simp [MetaImageValidator.syncCall, hdoc]) fun place howes => ?_
    cases place with
    | cache => exact absurd howes howedCache
    | edge => exact absurd (howed howes).2 (fun ⟨_, hnone, _⟩ => nomatch hnone)
  | some doc =>
    rw [hdoc] at howed
    simp only [MetaImageValidator.syncCall, hdoc]
    refine renewsPreviews_of_put True rfl rfl howedCache (fun html hhtml => ?_)
      fun _ => hcareful doc hdoc
    refine (page_ogSync hhtml).imp (fun hput => ⟨trivial, hput⟩) fun ⟨hold, hother⟩ =>
      ⟨hold, fun howes => hother ?_⟩
    obtain ⟨hsystem, _, ⟨⟩, hkey⟩ := howed howes
    rw [← hkey] at hsystem ⊢
    exact ⟨hsystem, rfl⟩

theorem ValidatorCareful.renews {p : Process ValidatorVars Stores}
    (hunder : p.todo <:+ MetaImageValidator.consumeCalls edge fetchPublicImage now payload)
    (hcareful : ValidatorCareful edge urlId key later payload others s p) :
    RenewsPreviews key later edge.render urlId others (ValidatorOwes edge key payload p)
      (ValidatorOwes edge key payload (p.step s).1) s (p.step s).2 := by
  obtain ⟨v, todo⟩ := p
  cases payload with
  | none =>
    rw [MetaImageValidator.consumeCalls, List.suffix_nil] at hunder
    subst hunder
    exact renewsPreviews_of_eq rfl fun _ h => h
  | some event =>
    simp only [MetaImageValidator.consumeCalls, List.suffix_cons_iff, List.suffix_nil] at hunder
    rcases hunder with rfl | rfl | rfl | rfl | rfl | rfl
    · refine renewsPreviews_of_eq rfl fun place howes => ?_
      cases place <;> simp [ValidatorOwes] at howes
    · refine writeCall_renews event (fun place howes => ?_)
        (fun hfetch => hcareful.1 rfl hfetch event rfl) fun place hchanged hrefreshes => ?_
      · cases place <;> simp [ValidatorOwes] at howes
      · cases place with
        | cache => exact ⟨rfl, hchanged, event, rfl, hrefreshes⟩
        | edge => exact .inl ⟨.inl rfl, hchanged, event, rfl, hrefreshes⟩
    · exact invalidateCall_renews
    · refine findCall_renews (fun howes => ?_) (fun howes => ?_) fun doc hdoc hkey howes => ?_
      · simp [ValidatorOwes] at howes
      · simp only [ValidatorOwes, List.length_cons, List.length_nil] at howes
        obtain ⟨-, hchanged, _, ⟨⟩, hkey, henabled, -⟩ := howes.resolve_right (by simp)
        exact ⟨hchanged, henabled, hkey⟩
      · simp only [ValidatorOwes, List.length_cons, List.length_nil] at howes
        obtain ⟨-, -, _, ⟨⟩, -, -, hsystem⟩ := howes.resolve_right (by simp)
        exact .inr ⟨rfl, hsystem, doc, hdoc, hkey⟩
    · refine syncCall_renews (fun howes => ?_) (fun howes => ?_) (hcareful.2 rfl)
      · simp [ValidatorOwes] at howes
      · simp only [ValidatorOwes, List.length_cons, List.length_nil] at howes
        exact (howes.resolve_left (by simp)).2
    · exact renewsPreviews_of_eq rfl fun _ h => h

end

/-! ### An update -/

section

variable {v : OwnerVars} {now : Int} {ownerId : ObjectId} {p : Process OwnerVars Stores}

/-- The write of an update, before the calls that refresh the keys. -/
theorem writeUpdate_renews {owed owed' : PreviewPlace → Prop} (howed : ∀ place, ¬owed place)
    (hcareful : ∀ decision ∈ v.pending, ∀ row ∈ s.urls.lookup urlId,
      let row' := decision.2.toUpdate.apply row
      row'.linkKey = key → row.linkKey ≠ key ∨ row'.metaImage ≠ row.metaImage →
        ∀ place, Exposed key later others s place →
          UpdateRefreshes edge key decision.1 decision.2 place)
    (howed' : ∀ place, ∀ decision ∈ (UrlService.writeUpdate urlId v s).1.pending,
      UpdateRefreshes edge key decision.1 decision.2 place → owed' place) :
    RenewsPreviews key later edge.render urlId others owed owed' s
      (UrlService.writeUpdate urlId v s).2 := by
  rcases UrlService.writeUpdate_cases v with ⟨hsame, -⟩ | ⟨existing, ops, urls, hpending, hwrite, hstep⟩
  · exact renewsPreviews_of_eq hsame fun place h => absurd h (howed place)
  · rw [hstep] at howed' ⊢
    have hlookup : urls.lookup urlId = (s.urls.lookup urlId).map ops.toUpdate.apply := by
      rw [lookup_updateManyUnique hwrite]
      refine Option.map_congr fun row hrow => applyWhere_of_matches _ ?_
      have hid : row.id = urlId := (lookup_eq_some_iff.1 hrow).2
      simp [hid]
    refine renewsPreviews_of_urls howed ?_
    by_cases hchanges : ∃ row ∈ s.urls.lookup urlId, (ops.toUpdate.apply row).linkKey = key ∧
        (row.linkKey ≠ key ∨ (ops.toUpdate.apply row).metaImage ≠ row.metaImage)
    · obtain ⟨row, hrow, hkey, hchanges⟩ := hchanges
      exact .inr fun place hexposed => howed' place _ hpending
        (hcareful _ hpending row hrow hkey hchanges place hexposed)
    · refine .inl fun row' hrow' hkey => ?_
      rw [hlookup] at hrow'
      obtain ⟨row, hrow, rfl⟩ := Option.map_eq_some_iff.1 hrow'
      have hsame : row.linkKey = key ∧ (ops.toUpdate.apply row).metaImage = row.metaImage := by
        have hnot := not_or.1 fun h => hchanges ⟨row, hrow, hkey, h⟩
        exact ⟨not_not.1 hnot.1, not_not.1 hnot.2⟩
      exact ⟨row, hrow, hsame.1, hsame.2.symm⟩

/-- The keys the update knows the link by are cleared. -/
theorem cached_invalidateKeys {existing : UrlV2Doc} {ops : UrlOps} {data : UrlCacheData}
    (hpending : v.pending = some (existing, ops))
    (h : (UrlService.invalidateKeys v s).2.cache.get key.1 key.2 = some data) :
    s.cache.get key.1 key.2 = some data ∧ existing.linkKey ≠ key ∧
      (ops.merge existing).linkKey ≠ key := by
  have hother {linkAlias domain : String}
      (hne : UrlCache.key key.1 key.2 ≠ UrlCache.key linkAlias domain) :
      (linkAlias, domain) ≠ key := fun hkey => hne (by rw [← hkey])
  unfold UrlService.invalidateKeys UrlService.onPending at h
  rw [hpending] at h
  dsimp only at h
  split at h
  · obtain ⟨hnew, h⟩ := UrlCache.entries_invalidate_eq_some.1 h
    obtain ⟨hold, h⟩ := UrlCache.entries_invalidate_eq_some.1 h
    exact ⟨h, hother hold, hother hnew⟩
  · rename_i hsame
    obtain ⟨hold, h⟩ := UrlCache.entries_invalidate_eq_some.1 h
    have hkey : (ops.merge existing).linkKey = existing.linkKey :=
      not_not.1 fun hne => hsame (decide_eq_true hne)
    exact ⟨h, hother hold, hkey ▸ hother hold⟩

theorem invalidateKeys_renews :
    RenewsPreviews key later edge.render urlId others
      (UpdateOwes edge key ⟨v, [UrlService.invalidateKeys, UrlService.reconcileEdge edge now]⟩)
      (UpdateOwes edge key ⟨v, [UrlService.reconcileEdge edge now]⟩) s
      (UrlService.invalidateKeys v s).2 := by
  cases hpending : v.pending with
  | none =>
    refine renewsPreviews_of_eq ?_ fun place howes => ?_
    · simp [UrlService.invalidateKeys, UrlService.onPending, hpending]
    · cases place <;> simp [UpdateOwes, hpending] at howes
  | some decision =>
    obtain ⟨existing, ops⟩ := decision
    refine renewsPreviews_of_drop (UrlService.urls_invalidateKeys v s)
      (UrlService.kv_invalidateKeys v) (fun data hdata => ?_) fun howes => ?_
    · have hcleared := cached_invalidateKeys hpending hdata
      refine ⟨hcleared.1, ?_⟩
      rintro ⟨-, _, hdecision, hkey⟩
      cases hpending.symm.trans hdecision
      exact hkey.elim hcleared.2.1 hcleared.2.2
    · exact ⟨.inr rfl, howes.2⟩

theorem reconcileEdge_renews
    (hcareful : ∀ decision ∈ v.pending, UpdateResyncs edge decision.1 decision.2 →
      PutCareful urlId key others s (decision.2.merge decision.1)) :
    RenewsPreviews key later edge.render urlId others
      (UpdateOwes edge key ⟨v, [UrlService.reconcileEdge edge now]⟩) (UpdateOwes edge key ⟨v, []⟩) s
      (UrlService.reconcileEdge edge now v s).2 := by
  have howedCache : ¬UpdateOwes edge key ⟨v, [UrlService.reconcileEdge edge now]⟩ .cache := by
    simp [UpdateOwes]
  cases hpending : v.pending with
  | none =>
    refine renewsPreviews_of_eq ?_ fun place howes => ?_
    · simp [UrlService.reconcileEdge, UrlService.onPending, hpending]
    · cases place <;> simp [UpdateOwes, hpending] at howes
  | some decision =>
    obtain ⟨existing, ops⟩ := decision
    simp only [UrlService.reconcileEdge, UrlService.onPending, hpending]
    refine renewsPreviews_of_put _ rfl rfl howedCache (fun html hhtml => ?_) (hcareful _ hpending)
    rcases page_updateEdge hhtml with hput | ⟨hold, hother⟩
    · exact .inl hput
    · refine .inr ⟨hold, fun howes => hother ?_⟩
      obtain ⟨-, _, hdecision, hresyncs, hkey, hsystem⟩ := howes
      cases hpending.symm.trans hdecision
      rw [← hkey] at hsystem ⊢
      exact ⟨hresyncs, hsystem, rfl⟩

theorem UpdateCareful.renews {env : UpdateEnv} {request : UpdateUrlRequest}
    {clientIp : Option String}
    (hunder : p.todo <:+ UrlService.updateCalls env edge urlId request ownerId clientIp now)
    (hcareful : UpdateCareful edge urlId key later others s p) :
    RenewsPreviews key later edge.render urlId others (UpdateOwes edge key p)
      (UpdateOwes edge key (p.step s).1) s (p.step s).2 := by
  obtain ⟨v, todo⟩ := p
  simp only [UrlService.updateCalls, List.suffix_cons_iff, List.suffix_nil] at hunder
  rcases hunder with rfl | rfl | rfl | rfl | rfl
  · refine renewsPreviews_of_eq (UrlService.readForUpdate_stores v) fun place howes => ?_
    cases place <;> simp [UpdateOwes] at howes
  · refine writeUpdate_renews (fun place howes => ?_) (hcareful.1 rfl)
      fun place decision hdecision hrefreshes => ?_
    · cases place <;> simp [UpdateOwes] at howes
    · cases place with
      | cache => exact ⟨rfl, decision, hdecision, hrefreshes⟩
      | edge => exact ⟨.inl rfl, decision, hdecision, hrefreshes⟩
  · rw [Process.step_cons, UrlService.vars_invalidateKeys]
    exact invalidateKeys_renews
  · rw [Process.step_cons, UrlService.vars_reconcileEdge]
    exact reconcileEdge_renews (hcareful.2 rfl)
  · exact renewsPreviews_of_eq rfl fun _ h => h

end

/-- A careful move leaves no preview of the link wrong that no operation will refresh. -/
theorem Careful.renews {party : ImageParty} {p : Process party.Vars Stores}
    (hunder : party.Underway edge urlId p)
    (hcareful : party.Careful edge urlId key later others s p) :
    RenewsPreviews key later edge.render urlId others (party.Owes edge key p)
      (party.Owes edge key (p.step s).1) s (p.step s).2 := by
  cases party with
  | validate => exact ValidatorCareful.renews hunder hcareful
  | update => exact UpdateCareful.renews hunder hcareful

/-- An operation that has finished owes nothing. -/
theorem not_owes_of_finished {party : ImageParty} {p : Process party.Vars Stores}
    {place : PreviewPlace} (hfinished : p.Finished) : ¬party.Owes edge key p place := by
  have htodo : p.todo = [] := hfinished
  cases party <;> cases place <;> simp [Owes, ValidatorOwes, UpdateOwes, htodo]

end ImageParty

/-! ## Runs -/

/-- The operations on the link, none of which has begun. -/
def imageRace {ι : Type} (edge : EdgeConfig) (urlId : ObjectId) (parties : ι → ImageParty)
    (s : Stores) : System (fun i => (parties i).Vars) Stores where
  procs i := (parties i).process edge urlId
  shared := s

/-- What the operations still have to refresh under the key. -/
def imageDebts {ι : Type} (edge : EdgeConfig) (key : String × String) (parties : ι → ImageParty)
    (i : ι) : Process (parties i).Vars Stores → PreviewPlace → Prop := (parties i).Owes edge key

/-- Validations and updates of a link run interleaved. While whatever changes the image of the link
under a key, or brings the link there, refreshes that key afterwards, and no page is put that shows
another image than the link has, unless another operation will refresh what is held, all preview
data under the key of the link shows its image once all have finished. -/
theorem previews_match_of_careful {ι : Type} [DecidableEq ι] (edge : EdgeConfig)
    (urlId : ObjectId) (key : String × String) (later : Int) (parties : ι → ImageParty)
    (s : Stores) (schedule : List ι) (hstart : PreviewsMatch key later edge.render urlId s)
    (hcareful : Run.Guarded System.step (fun sys i =>
        (parties i).Careful edge urlId key later
          (sys.OwedByOthers (imageDebts edge key parties) i) sys.shared (sys.procs i))
      (imageRace edge urlId parties s) schedule)
    (hfinished : ((imageRace edge urlId parties s).run schedule).Finished) :
    PreviewsMatch key later edge.render urlId
      ((imageRace edge urlId parties s).run schedule).shared := by
  have hunder : ∀ i, (parties i).Underway edge urlId ((imageRace edge urlId parties s).procs i) :=
    fun i => List.suffix_rfl
  have hrenewed : (imageRace edge urlId parties s).Renewed (Stores.preview key later)
      (ShowsStored key edge.render urlId) (imageDebts edge key parties) :=
    fun place preview hheld => .inl (hstart place preview hheld)
  have hrun := hrenewed.run (L := fun i => (parties i).Underway edge urlId)
    (fun i p s hp => (p.todo_step_suffix s).trans hp)
    (fun sys i hp hmay => ImageParty.Careful.renews hp hmay) hunder hcareful
  exact fun place preview hheld => hrun.right_of_free
    (fun i _ => ImageParty.not_owes_of_finished (hfinished i)) hheld

/-- A deployment with an edge, whose pages show the image alone. -/
def imageEdge : EdgeConfig where
  enabled := true
  systemDefaultDomain := "spoo.me"
  ogTtlSeconds := 86400
  render data := data.metaImage.getD ""

/-- A link with a preview image. -/
def bannerLink : UrlRow :=
  { ownedLink with
    metaTags := some { title := "Promo", image := some "https://img.example/a.png" } }

/-- The stores with the one link, cached and synced. -/
def bannerStores : Stores where
  urls := { docs := [bannerLink], nodup_id := by decide, nodup_key := by decide }
  legacy := .empty
  emoji := .empty
  cache := UrlCache.empty.set "aaa" (.fromV2Doc (.fromMongo bannerLink))
  kv := ogSync imageEdge.render .empty "spoo.me" 86400 (.fromV2Doc (.fromMongo bannerLink)) 0

/-- The image is gone, and the owner updates the link while it is validated. -/
def validateAnd (request : UpdateUrlRequest) : Bool → ImageParty
  | false => .validate (fun _ => .hardError)
      (some ⟨1, "aaa", "spoo.me", "https://img.example/a.png"⟩) 0
  | true => .update openEnv request 7 none 0

def bannerRace (request : UpdateUrlRequest) :
    System (fun i => (validateAnd request i).Vars) Stores :=
  imageRace imageEdge 1 (validateAnd request) bannerStores

/-- The image is fetched, the owner updates the link, the image is cleared. -/
def updateInside : List Bool :=
  [false, true, true, true, true, false, false, false, false]

/-- The owner's update reads the link, the image is validated, the update goes on. -/
def validateInside : List Bool :=
  [true, false, false, false, false, false, true, true, true]

/-- Another destination. -/
def redirectElsewhere : UpdateUrlRequest := { longUrl := some "https://b.example/" }

theorem previewsMatch_bannerStores (key : String × String)
    (hkey : key ∈ [("aaa", "spoo.me"), ("bbb", "spoo.me")]) :
    PreviewsMatch key 1 imageEdge.render 1 bannerStores := by
  intro place preview hheld row hrow hcurrent
  cases (show some bannerLink = some row from hrow)
  obtain rfl : ("aaa", "spoo.me") = key := hcurrent
  cases place with
  | cache =>
    cases (show some (.cached (some "https://img.example/a.png")) = some preview from hheld)
    rfl
  | edge =>
    cases (show some (.page "https://img.example/a.png") = some preview from hheld)
    exact ⟨.fromV2Doc (.fromMongo bannerLink), rfl, rfl⟩

theorem careful_updateInside : Run.Guarded System.step (fun sys i =>
      (validateAnd redirectElsewhere i).Careful imageEdge 1 ("aaa", "spoo.me") 1
        (sys.OwedByOthers (imageDebts imageEdge ("aaa", "spoo.me") (validateAnd redirectElsewhere))
          i) sys.shared (sys.procs i))
    (bannerRace redirectElsewhere) updateInside := by
  have idle {n m : Nat} {P : Prop} (h : n ≠ m) (hn : n = m) : P := absurd hn h
  let after (n : Nat) := (bannerRace redirectElsewhere).run (updateInside.take n)
  have hwrite : ∀ decision ∈ ((after 2).procs true).vars.pending,
      (decision.2.toUpdate.apply bannerLink).metaImage = bannerLink.metaImage := by
    decide +kernel
  have hput : ∀ decision ∈ ((after 4).procs true).vars.pending,
      (decision.2.merge decision.1).metaImage = some "https://img.example/a.png" := by
    decide +kernel
  have hkept : ∀ row ∈ (after 4).shared.urls.lookup 1,
      row.metaImage = some "https://img.example/a.png" := by
    decide +kernel
  have hsync : ∀ doc ∈ ((after 8).procs false).vars.doc, doc.metaImage = none := by
    decide +kernel
  have hcleared : ∀ row ∈ (after 8).shared.urls.lookup 1, row.metaImage = none := by
    decide +kernel
  refine ⟨⟨idle (by decide), idle (by decide)⟩, ⟨idle (by decide), idle (by decide)⟩,
    ⟨fun _ => ?_, idle (by decide)⟩, ⟨idle (by decide), idle (by decide)⟩,
    ⟨idle (by decide), fun _ => ?_⟩, ⟨fun _ _ => ?_, idle (by decide)⟩,
    ⟨idle (by decide), idle (by decide)⟩, ⟨idle (by decide), idle (by decide)⟩,
    ⟨idle (by decide), fun _ => ?_⟩, trivial⟩
  · rintro decision hdecision row ⟨⟩ row' - hchanges
    exact absurd hchanges (not_or.2 ⟨not_not.2 rfl, not_not.2 (hwrite decision hdecision)⟩)
  · exact fun decision hdecision _ _ _ _ row hrow _ =>
      .inl ((hput decision hdecision).trans (hkept row hrow).symm)
  · rintro _ ⟨⟩ - row - - - place -
    cases place
    · exact rfl
    · exact ⟨rfl, rfl, rfl⟩
  · exact fun doc hdoc _ _ _ row hrow _ => .inl ((hsync doc hdoc).trans (hcleared row hrow).symm)

theorem previews_match_of_careful_updateInside :
    PreviewsMatch ("aaa", "spoo.me") 1 imageEdge.render 1
      ((bannerRace redirectElsewhere).run updateInside).shared :=
  previews_match_of_careful imageEdge 1 ("aaa", "spoo.me") 1 (validateAnd redirectElsewhere)
    bannerStores updateInside (previewsMatch_bannerStores _ (by simp)) careful_updateInside
    fun i => by cases i <;> rfl

/-- A page that shows an image of a link that has none. -/
theorem not_previewsMatch {key : String × String} {s : Stores}
    (hpage : s.kv.page (cacheKey key.2 key.1) 1 = some "https://img.example/a.png")
    (hrow : (s.urls.lookup 1).map (fun row => (row.linkKey, row.metaImage)) = some (key, none)) :
    ¬PreviewsMatch key 1 imageEdge.render 1 s := by
  intro hmatch
  obtain ⟨row, hfound, hrow⟩ := Option.map_eq_some_iff.1 hrow
  obtain ⟨hkey, himage⟩ := Prod.mk.inj hrow
  obtain ⟨data, hdata, hhtml⟩ := hmatch .edge (.page "https://img.example/a.png")
    (preview_edge_eq_some.2 ⟨_, hpage, rfl⟩) row hfound hkey
  rw [himage] at hdata
  simp [imageEdge, hdata] at hhtml

/-- The edge keeps the page of an image that was cleared, where the link was renamed meanwhile, and
where an update had read the link before. -/
theorem cleared_image_remains :
    (∀ key ∈ [("aaa", "spoo.me"), ("bbb", "spoo.me")],
      PreviewsMatch key 1 imageEdge.render 1 bannerStores) ∧
    (((bannerRace { linkAlias := some "bbb" }).run updateInside).Finished ∧
      ¬PreviewsMatch ("bbb", "spoo.me") 1 imageEdge.render 1
        ((bannerRace { linkAlias := some "bbb" }).run updateInside).shared) ∧
    ((bannerRace redirectElsewhere).run validateInside).Finished ∧
      ¬PreviewsMatch ("aaa", "spoo.me") 1 imageEdge.render 1
        ((bannerRace redirectElsewhere).run validateInside).shared :=
  ⟨previewsMatch_bannerStores, ⟨fun i => by cases i <;> rfl,
      not_previewsMatch (by decide +kernel) (by decide +kernel)⟩,
    fun i => by cases i <;> rfl, not_previewsMatch (by decide +kernel) (by decide +kernel)⟩

end Spoo
